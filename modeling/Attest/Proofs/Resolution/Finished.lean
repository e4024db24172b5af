import Attest.Proofs.Key.Accepted
import Attest.Proofs.Number.Order
import Attest.Proofs.Run
import Attest.Resolution.Resolver

/-! Contexts that are finished: they were cancelled, or a clock that never goes back has shown a
time that reaches their deadline. A context that is finished remains so, and nothing is resolved
with it. -/

namespace Attest

/-- A clock shows a number each time that it is read, and none that is before an earlier one. -/
def Clock.NeverGoesBack (k : Clock) : Prop :=
  ∀ m n, m ≤ n → ∃ x y, k.reading m = .ok x ∧ k.reading n = .ok y ∧ x.le y = true

namespace Session

/-- A session goes on to another one: the clock shows what it has to show, and was not read less
often. -/
structure Leads (s t : Session) : Prop where
  reading : t.clock.reading = s.clock.reading
  reads : s.clock.reads ≤ t.clock.reads

theorem Leads.refl (s : Session) : s.Leads s := ⟨rfl, Nat.le_refl _⟩

theorem Leads.trans {s t u : Session} (hst : s.Leads t) (htu : t.Leads u) : s.Leads u :=
  ⟨htu.reading.trans hst.reading, Nat.le_trans hst.reads htu.reads⟩

theorem Leads.neverGoesBack {s t : Session} (h : s.Leads t) (hclock : s.clock.NeverGoesBack) :
    t.clock.NeverGoesBack := by
  unfold Clock.NeverGoesBack
  rw [h.reading]
  exact hclock

/-- The session after the clock was read. -/
def ticked (s : Session) : Session :=
  { s with clock := { s.clock with reads := s.clock.reads + 1 } }

theorem leads_ticked (s : Session) : s.Leads s.ticked := ⟨rfl, Nat.le_succ _⟩

theorem leads_logged (s : Session) (entry : Event) : s.Leads (s.logged entry) :=
  ⟨rfl, Nat.le_refl _⟩

end Session

namespace Context

/-- A deadline is absent or a number. -/
def IsNumeric (c : Context) : Prop := c.deadline = .null ∨ ∃ y, c.deadline.asNumber? = some y

/-- The deadline of a context was reached by some reading of the clock up to the next one. -/
def IsReached (c : Context) (s : Session) : Prop :=
  ∃ n ≤ s.clock.reads, ∃ x y, s.clock.reading n = .ok x ∧ c.deadline.asNumber? = some y ∧
    y.le x = true

/-- A context was cancelled, or its deadline was reached. -/
def IsFinished (c : Context) (s : Session) : Prop := c.cancelled = true ∨ c.IsReached s

variable {c : Context} {s t : Session}

/-- A context that is started with a number or nothing has a number or nothing for its deadline. -/
theorem isNumeric_of_start {timeout deadline : Value}
    (h : deadline = .null ∨ ∃ y, deadline.asNumber? = some y)
    (hstart : start timeout deadline s = (.ok c, t)) : c.IsNumeric := by
  unfold start at hstart
  split at hstart
  · cases hstart
    exact h
  · simp only [Run.bind_eq_ok_iff, Run.ofExcept_eq_ok_iff] at hstart
    obtain ⟨now, _, -, sum, _, ⟨-, rfl⟩, ⟨⟩⟩ := hstart
    refine .inr ⟨sum, ?_⟩
    cases sum <;> rfl

/-- How the check of a context ends. -/
inductive Checked (c : Context) (s : Session) : Except Error Unit → Session → Prop
  | cancelled (hcancelled : c.cancelled = true) : Checked c s (.error (.resolution .cancelled)) s
  | unlimited (hcancelled : c.cancelled = false) (hdeadline : c.deadline = .null) :
      Checked c s (.ok ()) s
  | exceeded {x y : Number} (hcancelled : c.cancelled = false)
      (hnow : s.clock.reading s.clock.reads = .ok x) (hdeadline : c.deadline.asNumber? = some y)
      (hreached : y.le x = true) : Checked c s (.error (.resolution .deadlineExceeded)) s.ticked
  | before {x y : Number} (hcancelled : c.cancelled = false)
      (hnow : s.clock.reading s.clock.reads = .ok x) (hdeadline : c.deadline.asNumber? = some y)
      (hreached : y.le x = false) : Checked c s (.ok ()) s.ticked

theorem readClock_of_ok {x : Number} (h : s.clock.reading s.clock.reads = .ok x) :
    Run.readClock s = (.ok x, s.ticked) := by
  simp [Run.readClock, Clock.read, h, ExceptT.mk, Session.ticked]

theorem not_isNull_of_asNumber? {v : Value} {y : Number} (h : v.asNumber? = some y) :
    ¬v.isNull = true := by
  cases v with
  | null => cases h
  | _ => exact Bool.false_ne_true

theorem expired_of_null (h : c.deadline = .null) : c.expired s = (.ok false, s) := by
  simp [expired, h, Value.isNull]

theorem expired_of_reading {x y : Number} (hx : s.clock.reading s.clock.reads = .ok x)
    (hy : c.deadline.asNumber? = some y) : c.expired s = (.ok (y.le x), s.ticked) := by
  rw [expired, if_neg (not_isNull_of_asNumber? hy), Run.bind_of_ok (readClock_of_ok hx),
    Value.isAtMost, hy]
  rfl

theorem check_of_cancelled (h : c.cancelled = true) :
    c.check s = (.error (.resolution .cancelled), s) := by
  rw [check, if_pos h]
  rfl

theorem check_of_expired {expired : Bool} (hcancelled : c.cancelled = false)
    (h : c.expired s = (.ok expired, t)) :
    c.check s = (if expired then .error (.resolution .deadlineExceeded) else .ok (), t) := by
  rw [check, if_neg (Bool.eq_false_iff.mp hcancelled), Run.bind_of_ok h]
  cases expired <;> rfl

theorem exists_checked (hnumeric : c.IsNumeric) (hclock : s.clock.NeverGoesBack) :
    ∃ x t, c.check s = (x, t) ∧ Checked c s x t := by
  cases hcancelled : c.cancelled with
  | true => exact ⟨_, _, check_of_cancelled hcancelled, .cancelled hcancelled⟩
  | false =>
    rcases hnumeric with hnull | ⟨y, hy⟩
    · exact ⟨_, _, check_of_expired hcancelled (expired_of_null hnull),
        .unlimited hcancelled hnull⟩
    · obtain ⟨x, -, hx, -, -⟩ := hclock s.clock.reads s.clock.reads (Nat.le_refl _)
      refine ⟨_, _, check_of_expired hcancelled (expired_of_reading hx hy), ?_⟩
      cases hreached : y.le x with
      | true => exact .exceeded hcancelled hx hy hreached
      | false => exact .before hcancelled hx hy hreached

theorem Checked.leads {x : Except Error Unit} (h : Checked c s x t) : s.Leads t := by
  cases h with
  | cancelled | unlimited => exact .refl s
  | exceeded | before => exact s.leads_ticked

theorem IsFinished.leads (h : c.IsFinished s) (hleads : s.Leads t) : c.IsFinished t := by
  refine h.imp_right ?_
  rintro ⟨n, hn, x, y, hx, hy, hreached⟩
  exact ⟨n, Nat.le_trans hn hleads.reads, x, y, hleads.reading ▸ hx, hy, hreached⟩

end Context

/-- The error of a context that was cancelled or whose deadline was reached. -/
def Error.IsOfContext (e : Error) : Prop :=
  e = .resolution .cancelled ∨ e = .resolution .deadlineExceeded

theorem Error.IsOfContext.kind {e : Error} (h : e.IsOfContext) : e.kind = .resolution := by
  rcases h with rfl | rfl <;> rfl

namespace Context

variable {c : Context} {s t : Session}

theorem IsFinished.exists_error {x : Except Error Unit} (h : c.IsFinished s)
    (hclock : s.clock.NeverGoesBack) (hchecked : Checked c s x t) :
    ∃ e, x = .error e ∧ e.IsOfContext := by
  cases hchecked with
  | cancelled => exact ⟨_, rfl, .inl rfl⟩
  | exceeded => exact ⟨_, rfl, .inr rfl⟩
  | unlimited hcancelled hdeadline =>
    rcases h with hyes | ⟨-, -, -, y, -, hy, -⟩
    · exact absurd (hcancelled.symm.trans hyes) Bool.false_ne_true
    · rw [hdeadline] at hy
      cases hy
  | @before now y hcancelled hnow hy hreached =>
    rcases h with hyes | ⟨n, hn, x, y', hx, hy', hreached'⟩
    · exact absurd (hcancelled.symm.trans hyes) Bool.false_ne_true
    · obtain rfl := Option.some.inj (hy.symm.trans hy')
      obtain ⟨x', now', hx', hnow', hle⟩ := hclock n s.clock.reads hn
      obtain rfl := Except.ok.inj (hx.symm.trans hx')
      obtain rfl := Except.ok.inj (hnow.symm.trans hnow')
      exact absurd (hreached.symm.trans (Number.le_trans hreached' hle)) Bool.false_ne_true

theorem Checked.isFinished {e : Error} (h : Checked c s (.error e) t) : c.IsFinished t := by
  cases h with
  | cancelled hcancelled => exact .inl hcancelled
  | exceeded hcancelled hnow hdeadline hreached =>
    exact .inr ⟨_, Nat.le_succ _, _, _, hnow, hdeadline, hreached⟩

end Context

namespace Resolver

variable {c : Context} {s : Session}

/-- An identifier without a document is of another method, or is not accepted as a key. -/
theorem keyDocument_eq_error {did : String} {e : Error} (h : keyDocument did = .error e) :
    e = .resolution (.unsupportedMethod did) ∨ ∃ k, e = .resolution (.key did k) := by
  unfold keyDocument at h
  simp only at h
  split at h
  · split at h
    · cases h
    · rename_i k hk
      rw [if_pos (DidKey.decode_eq_error hk)] at h
      exact .inr ⟨k, (Except.error.inj h).symm⟩
  · exact .inl (Except.error.inj h).symm

theorem keyDocument_not_isOfContext {did : String} {e : Error} (h : keyDocument did = .error e) :
    ¬e.IsOfContext := by
  rcases keyDocument_eq_error h with rfl | ⟨k, rfl⟩
  all_goals
    rintro (h | h) <;> cases h

/-- A document is made exactly of an identifier that is accepted as a key. -/
theorem keyDocument_eq_ok_iff {did : String} {document : Document} :
    keyDocument did = .ok document ↔ ∃ key,
      DidKey.decode (DidKey.withoutFragment did) = .ok key ∧
        document = key.document (DidKey.withoutFragment did) := by
  unfold keyDocument
  simp only
  split
  · split
    · rename_i key hkey
      rw [Except.ok.injEq, hkey]
      constructor
      · rintro rfl
        exact ⟨key, rfl, rfl⟩
      · rintro ⟨_, ⟨⟩, rfl⟩
        rfl
    · rename_i e he
      refine iff_of_false nofun ?_
      rintro ⟨key, hkey, -⟩
      cases he.symm.trans hkey
  · rename_i hscheme
    refine iff_of_false nofun ?_
    rintro ⟨key, hkey, -⟩
    unfold DidKey.decode at hkey
    split at hkey
    · rename_i rest hrest
      exact hscheme (Option.isSome_iff_exists.mpr ⟨rest, hrest⟩)
    · cases hkey

/-- The resolver of identifiers that are keys gives a document exactly if the context passes its
check and the identifier is one of a key. -/
theorem resolve_ofKeys_eq_ok_iff {context : Option Context} {did : Value} {document : Document}
    {t : Session} : ofKeys.resolve context did s = (.ok document, t) ↔
      ∃ name u, did = .text name ∧ keyDocument name = .ok document ∧
        Context.checkSome context s = (.ok (), u) ∧
        t = u.logged (.resolved (DidKey.withoutFragment name)) := by
  unfold ofKeys
  simp only [Run.bind_eq_ok_iff, Run.ofExcept_eq_ok_iff, Except.mapError_eq_ok_iff]
  constructor
  · rintro ⟨_, _, hcheck, _, _, ⟨hname, rfl⟩, _, _, ⟨hdocument, rfl⟩, _, _, ⟨⟩, ⟨⟩⟩
    cases did with
    | text s =>
      obtain rfl := Except.ok.inj hname
      exact ⟨s, _, rfl, hdocument, hcheck, rfl⟩
    | _ => cases hname
  · rintro ⟨name, u, rfl, hdocument, hcheck, rfl⟩
    exact ⟨(), u, hcheck, name, u, ⟨rfl, rfl⟩, document, u, ⟨hdocument, rfl⟩, (), _, rfl, rfl⟩

theorem resolve_of_check_error {e : Error} {t : Session} (h : c.check s = (.error e, t))
    (did : Value) : ofKeys.resolve (some c) did s = (.error e, t) := Run.bind_of_error h

/-- After the check, the identifier decides, and the clock is not read again. -/
theorem resolve_of_check_ok {t : Session} (h : c.check s = (.ok (), t)) (did : Value) :
    ∃ x u, ofKeys.resolve (some c) did s = (x, u) ∧ t.Leads u ∧
      ∀ e, x = .error e → ¬e.IsOfContext := by
  have hresolve : ofKeys.resolve (some c) did s = (do
      let did ← Run.ofExcept ((did.asText "split").mapError .ofFault)
      let document ← Run.ofExcept (keyDocument did)
      Run.log (.resolved (DidKey.withoutFragment did))
      return document : Run Document) t := Run.bind_of_ok h
  rw [hresolve]
  cases hdid : did.asText "split" with
  | error f =>
    refine ⟨_, _, rfl, .refl t, ?_⟩
    rintro _ ⟨⟩ (h | h) <;> cases h
  | ok did =>
    rw [Except.mapError_ok, Run.ofExcept_bind_ok]
    cases hdocument : keyDocument did with
    | error e =>
      refine ⟨_, _, rfl, .refl t, ?_⟩
      rintro _ ⟨⟩
      exact keyDocument_not_isOfContext hdocument
    | ok document => exact ⟨_, _, rfl, ⟨rfl, Nat.le_refl _⟩, nofun⟩

end Resolver

/-- Something that a caller does with a context and the resolver of identifiers that are keys. -/
inductive Use where
  | cancel
  | check
  | resolve (did : Value)

namespace Use

/-- The error with which a use fails, if it does, and the context and the session after it. -/
def perform (c : Context) (s : Session) : Use → Option Error × Context × Session
  | cancel => (none, c.cancel, s)
  | check => (Except.error? (c.check s).1, c, (c.check s).2)
  | resolve did =>
    let resolved := Resolver.ofKeys.resolve (some c) did s
    (Except.error? resolved.1, c, resolved.2)

/-- Each of some uses with the error with which it fails; the others go on after a failure. -/
def history (c : Context) (s : Session) : List Use → List (Use × Option Error)
  | [] => []
  | use :: rest =>
    let (e, c', t) := use.perform c s
    (use, e) :: history c' t rest

/-- How a use ends: it cancels the context, or it fails with the check of the context, or the
context passes the check and the rest of the use fails for no reason of the context, if at all. -/
inductive Performed (c : Context) (s : Session) :
    Use → Option Error → Context → Session → Prop
  | cancels : Performed c s .cancel none c.cancel s
  | stops {use e t} (huse : use ≠ .cancel) (hchecked : c.Checked s (.error e) t) :
      Performed c s use (some e) c t
  | goesOn {use e t u} (huse : use ≠ .cancel) (hchecked : c.Checked s (.ok ()) t)
      (hleads : t.Leads u) (hrest : ∀ e', e = some e' → ¬e'.IsOfContext) :
      Performed c s use e c u

/-- A use failed because of the context. -/
def FailedOfContext (e : Option Error) : Prop := ∃ e', e = some e' ∧ e'.IsOfContext

variable {c c' : Context} {s t : Session} {use : Use} {e : Option Error}

theorem exists_performed (hnumeric : c.IsNumeric) (hclock : s.clock.NeverGoesBack) (use : Use) :
    ∃ e c' t, use.perform c s = (e, c', t) ∧ Performed c s use e c' t := by
  obtain ⟨x, t, hcheck, hchecked⟩ := Context.exists_checked hnumeric hclock
  cases use with
  | cancel => exact ⟨_, _, _, rfl, .cancels⟩
  | check =>
    have hperform : Use.check.perform c s = (Except.error? x, c, t) := by rw [perform, hcheck]
    cases x with
    | error e => exact ⟨_, _, _, hperform, .stops nofun hchecked⟩
    | ok => exact ⟨_, _, _, hperform, .goesOn nofun hchecked (.refl t) nofun⟩
  | resolve did =>
    cases x with
    | error e =>
      have hresolve := Resolver.resolve_of_check_error hcheck did
      have hperform : (Use.resolve did).perform c s = (some e, c, t) := by
        rw [perform, hresolve]
        rfl
      exact ⟨_, _, _, hperform, .stops nofun hchecked⟩
    | ok =>
      obtain ⟨x, u, hresolve, hleads, hrest⟩ := Resolver.resolve_of_check_ok hcheck did
      refine ⟨_, _, _, by rw [perform, hresolve], .goesOn nofun hchecked hleads fun e he => ?_⟩
      exact hrest e (Except.error?_eq_some_iff.mp he)

theorem Performed.leads (h : Performed c s use e c' t) : s.Leads t := by
  cases h with
  | cancels => exact .refl s
  | stops _ hchecked => exact hchecked.leads
  | goesOn _ hchecked hleads => exact hchecked.leads.trans hleads

theorem Performed.isNumeric (h : Performed c s use e c' t) (hnumeric : c.IsNumeric) :
    c'.IsNumeric := by
  cases h <;> exact hnumeric

theorem Performed.isFinished (h : Performed c s use e c' t) (hfinished : c.IsFinished s) :
    c'.IsFinished t := by
  have hleads := h.leads
  cases h with
  | cancels => exact .inl rfl
  | stops | goesOn => exact hfinished.leads hleads

theorem Performed.isFinished_of_error {e : Error} (h : Performed c s use (some e) c' t)
    (he : e.IsOfContext) : c'.IsFinished t := by
  cases h with
  | stops _ hchecked => exact hchecked.isFinished
  | goesOn _ _ _ hrest => exact absurd he (hrest e rfl)

theorem Performed.exists_error (h : Performed c s use e c' t) (hfinished : c.IsFinished s)
    (hclock : s.clock.NeverGoesBack) (huse : use ≠ .cancel) : FailedOfContext e := by
  cases h with
  | cancels => exact absurd rfl huse
  | stops _ hchecked =>
    obtain ⟨e', he, hof⟩ := hfinished.exists_error hclock hchecked
    exact ⟨e', congrArg some (Except.error.inj he), hof⟩
  | goesOn _ hchecked =>
    obtain ⟨e, ⟨⟩, -⟩ := hfinished.exists_error hclock hchecked

theorem fst_history (c : Context) (s : Session) (uses : List Use) :
    (history c s uses).map Prod.fst = uses := by
  induction uses generalizing c s with
  | nil => rfl
  | cons use rest ih => exact congrArg (use :: ·) (ih _ _)

theorem failed_of_isFinished (hnumeric : c.IsNumeric) (hclock : s.clock.NeverGoesBack)
    (hfinished : c.IsFinished s) (uses : List Use) :
    ∀ entry ∈ history c s uses, entry.1 ≠ .cancel → FailedOfContext entry.2 := by
  induction uses generalizing c s with
  | nil => nofun
  | cons use rest ih =>
    obtain ⟨e, c', t, hperform, hperformed⟩ := exists_performed hnumeric hclock use
    simp only [history, hperform, List.forall_mem_cons]
    exact ⟨hperformed.exists_error hfinished hclock,
      ih (hperformed.isNumeric hnumeric) (hperformed.leads.neverGoesBack hclock)
        (hperformed.isFinished hfinished)⟩

/-- Once a use has failed because of the context, all later ones do. -/
theorem pairwise_history (hnumeric : c.IsNumeric) (hclock : s.clock.NeverGoesBack)
    (uses : List Use) : (history c s uses).Pairwise fun earlier later =>
      FailedOfContext earlier.2 → later.1 ≠ .cancel → FailedOfContext later.2 := by
  induction uses generalizing c s with
  | nil => exact .nil
  | cons use rest ih =>
    obtain ⟨e, c', t, hperform, hperformed⟩ := exists_performed hnumeric hclock use
    have hnumeric' := hperformed.isNumeric hnumeric
    have hclock' := hperformed.leads.neverGoesBack hclock
    simp only [history, hperform]
    refine .cons (fun entry hentry hfailed => ?_) (ih hnumeric' hclock')
    obtain ⟨e', rfl, he'⟩ := hfailed
    exact failed_of_isFinished hnumeric' hclock' (hperformed.isFinished_of_error he') rest entry
      hentry

end Use

end Attest
