import Attest.Claims.Mapping
import Attest.Proofs.Run
import Attest.Proofs.Value.WellFormed

/-! Claims that are set one after the other: what a claim becomes, what the others remain, and that the
claim set can be written and read at every step. -/

namespace Attest.Claims

/-- Sets a claim to a value that was made of another one, unless that one counts as false. -/
def put (claims : Claims) (name : String) (v w : Value) : Claims :=
  if v.isTruthy then Object.set claims name w else claims

theorem get?_put (claims : Claims) (name other : String) (v w : Value) :
    Object.get? (put claims name v w) other =
      if other = name ∧ v.isTruthy = true then some w else Object.get? claims other := by
  unfold put
  cases hv : v.isTruthy with
  | true => simp only [if_true, Object.get?_set, and_true]
  | false => simp only [Bool.false_eq_true, if_false, and_false]

theorem set_eq_ok_iff {claims claims' : Claims} {name : String} {v : Value} :
    set claims name v = .ok claims' ↔
      ∃ w, normalize name v = .ok w ∧ claims' = Object.set claims name w := by
  unfold set
  cases normalize name v with
  | ok w =>
    constructor
    · intro h
      exact ⟨w, rfl, (Except.ok.inj h).symm⟩
    · rintro ⟨_, ⟨⟩, rfl⟩
      rfl
  | error e => exact ⟨nofun, nofun⟩

theorem set_untyped {name : String} (htime : isTime name = false) (hname : isName name = false)
    (haud : name ≠ "aud") (claims : Claims) (v : Value) :
    set claims name v = .ok (Object.set claims name v) :=
  set_eq_ok_iff.mpr ⟨v, by simp [normalize, htime, hname, haud], rfl⟩

theorem setIfTruthy_eq_ok_iff {claims claims' : Claims} {name : String} {v : Value} :
    setIfTruthy claims name v = .ok claims' ↔
      ∃ w, (v.isTruthy = true → normalize name v = .ok w) ∧ claims' = put claims name v w := by
  unfold setIfTruthy put
  cases hv : v.isTruthy with
  | true => simp only [if_true, set_eq_ok_iff, true_implies]
  | false =>
    simp only [Bool.false_eq_true, if_false, false_implies, true_and]
    exact ⟨fun h => ⟨.null, (Except.ok.inj h).symm⟩, fun ⟨_, h⟩ => congrArg Except.ok h.symm⟩

theorem normalize_name_eq {name : String} (hname : isName name = true) (v : Value) :
    normalize name v =
      if v.isText then .ok v else .error (.claim name (some (.notText v.typeName))) := by
  have htime : isTime name = false := by
    simp only [isName, Bool.or_eq_true, beq_iff_eq] at hname
    rcases hname with (rfl | rfl) | rfl <;> rfl
  have haud : name ≠ "aud" := by
    rintro rfl
    cases hname
  simp only [normalize, htime, hname, Bool.false_eq_true, if_false, Bool.true_and, haud]
  cases v.isText <;> rfl

theorem normalize_name {name : String} (hname : isName name = true) {v w : Value} :
    normalize name v = .ok w ↔ v.isText = true ∧ w = v := by
  rw [normalize_name_eq hname]
  cases v.isText <;> simp [eq_comm]

theorem normalize_time {name : String} (htime : isTime name = true) (v : Value) :
    normalize name v = (numericDate name v).map .int := by
  unfold normalize
  rw [if_pos htime]

theorem exists_numericDate_of_normalize {name : String} (htime : isTime name = true) {v w : Value}
    (h : normalize name v = .ok w) : ∃ n, numericDate name v = .ok n ∧ w = .int n := by
  rw [normalize_time htime] at h
  obtain ⟨n, hdate, rfl⟩ := Except.map_eq_ok_iff.mp h
  exact ⟨n, hdate, rfl⟩

theorem readDate_congr {name s : String} {t : DateTime} (h : readDate name s = .ok t)
    (other : String) : readDate other s = .ok t := by
  unfold readDate at h ⊢
  dsimp only at h ⊢
  split at h
  · rename_i hdigits
    rw [if_pos hdigits]
    exact h
  · rename_i hdigits
    rw [if_neg hdigits]
    split at h
    · exact h
    · cases h

/-- Whether a value is a date, and which, does not depend on the claim that asks for it. -/
theorem numericDate_congr {name : String} {v : Value} {i : Int} (h : numericDate name v = .ok i)
    (other : String) : numericDate other v = .ok i := by
  cases v with
  | text s =>
    obtain ⟨t, ht, hi⟩ := Except.map_eq_ok_iff.mp h
    exact Except.map_eq_ok_iff.mpr ⟨t, readDate_congr ht other, hi⟩
  | int | float | time => exact h
  | null | bool | list | object | credential => cases h

theorem normalize_iat_nbf {v iat nbf : Value} (hiat : normalize "iat" v = .ok iat)
    (hnbf : normalize "nbf" v = .ok nbf) : iat = nbf := by
  obtain ⟨i, hi, rfl⟩ := exists_numericDate_of_normalize rfl hiat
  obtain ⟨j, hj, rfl⟩ := exists_numericDate_of_normalize rfl hnbf
  rw [numericDate_congr hi "nbf"] at hj
  rw [Except.ok.inj hj]

/-- A claim set that is read again as it is: its names are distinct at any depth, and its audience is
valid. -/
structure Sound (claims : Claims) : Prop where
  wellFormed : (Value.object claims).WellFormed
  audience : hasValidAudience claims = true

theorem sound_nil : Sound [] := ⟨rfl, rfl⟩

theorem wellFormed_of_isAudience {v : Value} (h : isAudience v = true) : v.WellFormed := by
  cases v with
  | text s => exact Value.wellFormed_text s
  | list items =>
    rw [Value.wellFormed_list_iff]
    intro v hv
    have htext := List.all_eq_true.mp h v hv
    cases v with
    | text s => exact Value.wellFormed_text s
    | _ => cases htext
  | _ => cases h

/-- What a claim becomes is well formed, and valid if it is an audience. Of a date and of an audience
this is checked. -/
theorem normalize_sound {name : String} {v w : Value} (h : normalize name v = .ok w)
    (hv : isTime name = true ∨ name = "aud" ∨ v.WellFormed) :
    w.WellFormed ∧ (name = "aud" → isAudience w = true) := by
  unfold normalize at h
  split at h
  · rename_i htime
    obtain ⟨n, -, rfl⟩ := Except.map_eq_ok_iff.mp h
    refine ⟨Value.wellFormed_int n, ?_⟩
    rintro rfl
    cases htime
  split at h
  · cases h
  split at h
  · split at h
    · rename_i haudience
      split at h
      · obtain rfl := Except.ok.inj h
        exact ⟨wellFormed_of_isAudience rfl, fun _ => rfl⟩
      · obtain rfl := Except.ok.inj h
        exact ⟨wellFormed_of_isAudience haudience, fun _ => haudience⟩
    · cases h
  · rename_i htime _ hname
    obtain rfl := Except.ok.inj h
    exact ⟨(hv.resolve_left htime).resolve_left hname, fun haud => absurd haud hname⟩

theorem Sound.set {claims claims' : Claims} {name : String} {v : Value} (h : Sound claims)
    (hv : isTime name = true ∨ name = "aud" ∨ v.WellFormed)
    (hset : set claims name v = .ok claims') : Sound claims' := by
  obtain ⟨w, hw, rfl⟩ := set_eq_ok_iff.mp hset
  obtain ⟨hwell, haudience⟩ := normalize_sound hw hv
  refine ⟨Object.wellFormed_set h.wellFormed hwell name, ?_⟩
  rw [hasValidAudience, Object.get?_set]
  split
  · rename_i hname
    exact haudience hname.symm
  · exact h.audience

theorem Sound.setIfTruthy {claims claims' : Claims} {name : String} {v : Value} (h : Sound claims)
    (hv : isTime name = true ∨ name = "aud" ∨ v.WellFormed)
    (hset : setIfTruthy claims name v = .ok claims') : Sound claims' := by
  unfold Claims.setIfTruthy at hset
  split at hset
  · exact h.set hv hset
  · exact Except.ok.inj hset ▸ h

theorem Sound.put {claims : Claims} {name : String} {v w : Value} (h : Sound claims)
    (hv : isTime name = true ∨ name = "aud" ∨ v.WellFormed)
    (hw : v.isTruthy = true → normalize name v = .ok w) : Sound (put claims name v w) :=
  h.setIfTruthy hv (setIfTruthy_eq_ok_iff.mpr ⟨w, hw, rfl⟩)

theorem wellFormed_moved {v : Value} (h : v.WellFormed) : v.moved.WellFormed := by
  unfold Value.moved
  split
  · exact Value.wellFormed_text ""
  · exact h

theorem get?_of_set {claims claims' : Claims} {name other : String} {v : Value}
    (hset : set claims name v = .ok claims') (hne : other ≠ name) :
    Object.get? claims' other = Object.get? claims other := by
  obtain ⟨w, -, rfl⟩ := set_eq_ok_iff.mp hset
  exact Object.get?_set_of_ne hne

theorem get?_of_setIfTruthy {claims claims' : Claims} {name other : String} {v : Value}
    (hset : setIfTruthy claims name v = .ok claims') (hne : other ≠ name) :
    Object.get? claims' other = Object.get? claims other := by
  unfold setIfTruthy at hset
  split at hset
  · exact get?_of_set hset hne
  · rw [Except.ok.inj hset]

theorem get?_of_set_name {claims claims' : Claims} {name : String} {v : Value}
    (hname : isName name = true) (hset : set claims name v = .ok claims') :
    Object.get? claims' name = some v := by
  obtain ⟨w, hw, rfl⟩ := set_eq_ok_iff.mp hset
  rw [Object.get?_set_self, ((normalize_name hname).mp hw).2]

theorem get?_of_setIfTruthy_name {claims claims' : Claims} {name : String} {v : Value}
    (hname : isName name = true) (hset : setIfTruthy claims name v = .ok claims') :
    Object.get? claims' name = if v.isTruthy then some v else Object.get? claims name := by
  unfold setIfTruthy at hset
  split at hset
  · rename_i hv
    rw [if_pos hv, get?_of_set_name hname hset]
  · rename_i hv
    rw [if_neg hv, Except.ok.inj hset]

theorem get?_of_set_untyped {claims claims' : Claims} {name : String} {v : Value}
    (htime : isTime name = false) (hname : isName name = false) (haud : name ≠ "aud")
    (hset : set claims name v = .ok claims') : Object.get? claims' name = some v := by
  rw [set_untyped htime hname haud] at hset
  rw [← Except.ok.inj hset, Object.get?_set_self]

end Attest.Claims
