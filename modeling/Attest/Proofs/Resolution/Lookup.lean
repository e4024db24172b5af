import Attest.Proofs.Key.Identifier
import Attest.Proofs.Resolution.Answers

/-! Methods are looked up by their identifiers, or by the fragments in which these end. The first
method that answers is found, so one that has exactly the identifier that is meant can be shadowed by
another one before it that ends in the same fragment. -/

namespace Attest

/-- A method answers to its identifier, and to each end of it that begins with a number sign. -/
def VerificationMethod.Answers (m : VerificationMethod) (name : String) : Prop :=
  m.id = .text name ∨
    Text.beginsWith "#" name = true ∧ ∃ front, m.id = .text (front ++ name)

namespace Document

theorem isMethod_text {m : VerificationMethod} (hm : m.id.isText = true) (name : String) :
    ∃ b, isMethod (.text name) m = .ok b ∧ (b = true ↔ m.Answers name) := by
  obtain ⟨t, ht⟩ := Value.exists_of_isText hm
  unfold isMethod VerificationMethod.Answers
  rw [ht]
  split
  · rename_i hsame
    exact ⟨true, rfl, iff_of_true rfl (.inl (Value.same_text.mp hsame).symm)⟩
  · rename_i hsame
    have hid : ¬Value.text t = .text name := fun h => hsame (Value.same_text.mpr h.symm)
    change ∃ b, (if Text.beginsWith "#" name = true then Except.ok (Text.endsWith name t)
      else .ok false) = _ ∧ _
    split
    · rename_i hbegins
      refine ⟨_, rfl, ?_⟩
      simp only [hid, hbegins, true_and, false_or, Value.text.injEq]
      exact Text.endsWith_iff
    · rename_i hbegins
      simp [hid, hbegins]

open Classical in
/-- The first method that answers is found. -/
theorem findMethod_text {methods : List VerificationMethod}
    (hids : ∀ m ∈ methods, m.id.isText = true) (name : String) :
    findMethod (.text name) methods = .ok (methods.find? fun m => decide (m.Answers name)) := by
  induction methods with
  | nil => rfl
  | cons m rest ih =>
    obtain ⟨b, hb, hanswers⟩ := isMethod_text (hids m List.mem_cons_self) name
    rw [findMethod, hb]
    cases b with
    | true =>
      have hm : m.Answers name := hanswers.mp rfl
      rw [List.find?_cons_of_pos (by simpa using hm)]
    | false =>
      have hm : ¬m.Answers name := fun h => Bool.false_ne_true (hanswers.mpr h)
      rw [List.find?_cons_of_neg (by simpa using hm)]
      exact ih fun x hx => hids x (List.mem_cons_of_mem m hx)

variable {d : Document} {name : String} {m : VerificationMethod}

theorem method?_text_eq_some_iff (hids : ∀ x ∈ d.methods, x.id.isText = true) :
    d.method? (.text name) = .ok (some m) ↔
      m.Answers name ∧ ∃ before after, d.methods = before ++ m :: after ∧
        ∀ x ∈ before, ¬x.Answers name := by
  rw [method?, findMethod_text hids, Except.ok.injEq, List.find?_eq_some_iff_append]
  simp

theorem method?_text_eq_none_iff (hids : ∀ x ∈ d.methods, x.id.isText = true) :
    d.method? (.text name) = .ok none ↔ ∀ x ∈ d.methods, ¬x.Answers name := by
  rw [method?, findMethod_text hids, Except.ok.injEq, List.find?_eq_none]
  simp

theorem exists_method?_of_answers (hids : ∀ x ∈ d.methods, x.id.isText = true) (hm : m ∈ d.methods)
    (hanswers : m.Answers name) : ∃ found, d.method? (.text name) = .ok (some found) := by
  cases hfind : d.method? (.text name) with
  | error f =>
    obtain ⟨htext, -⟩ := (findMethod_eq_error_iff hids).mp ⟨f, hfind⟩
    cases htext
  | ok found =>
    cases found with
    | none => exact absurd hanswers ((method?_text_eq_none_iff hids).mp hfind m hm)
    | some found => exact ⟨found, rfl⟩

/-- The identifier that is meant by a name in a document: the name itself if a method has it, and
otherwise, for a fragment, that of the document followed by it. -/
inductive Means (d : Document) (name : String) : String → Prop
  | whole (h : ∃ m ∈ d.methods, m.id = .text name) : Means d name name
  | fragment {did : String} (hdid : d.id = .text did) (hbegins : Text.beginsWith "#" name = true)
      (hnone : ∀ m ∈ d.methods, m.id ≠ .text name)
      (h : ∃ m ∈ d.methods, m.id = .text (did ++ name)) : Means d name (did ++ name)

/-- A method that answers to a name comes before all those that have an identifier, and has another
one itself. -/
def Shadows (d : Document) (name id : String) : Prop :=
  ∃ before m after, d.methods = before ++ m :: after ∧ m.Answers name ∧
    ∀ x ∈ before ++ [m], x.id ≠ .text id

variable {id : String}

theorem Means.exists_front (h : d.Means name id) :
    ∃ front, id = front ++ name ∧ (front = "" ∨ Text.beginsWith "#" name = true) := by
  cases h with
  | whole => exact ⟨"", (String.empty_append).symm, .inl rfl⟩
  | fragment _ hbegins => exact ⟨_, rfl, .inr hbegins⟩

theorem Means.exists_mem (h : d.Means name id) : ∃ m ∈ d.methods, m.id = .text id := by
  cases h with
  | whole h | fragment _ _ _ h => exact h

theorem Means.answers (h : d.Means name id) (hm : m.id = .text id) : m.Answers name := by
  obtain ⟨front, rfl, rfl | hbegins⟩ := h.exists_front
  · rw [String.empty_append] at hm
    exact .inl hm
  · exact .inr ⟨hbegins, front, hm⟩

theorem Means.answers_of_answers (h : d.Means name id) (hm : m.Answers id) : m.Answers name := by
  rcases hm with hid | ⟨hbegins, front, hid⟩
  · exact h.answers hid
  · obtain ⟨part, rfl, rfl | hname⟩ := h.exists_front
    · rw [String.empty_append] at hbegins hid
      exact .inr ⟨hbegins, front, hid⟩
    · exact .inr ⟨hname, front ++ part, by rw [hid, String.append_assoc]⟩

theorem not_shadows_of_not_beginsWith (h : Text.beginsWith "#" name = false) :
    ¬d.Shadows name name := by
  rintro ⟨before, m, after, -, hid | ⟨hbegins, -⟩, hothers⟩
  · exact hothers m (by simp) hid
  · exact absurd (h.symm.trans hbegins) Bool.false_ne_true

theorem not_shadows_of_unique (h : ∀ x ∈ d.methods, x.Answers name → x.id = .text id) :
    ¬d.Shadows name id := by
  rintro ⟨before, m, after, hmethods, hanswers, hothers⟩
  exact hothers m (by simp) (h m (by simp [hmethods]) hanswers)

/-- The first method that answers has the identifier that is meant unless it shadows it. -/
theorem id_eq_iff_not_shadows (hids : ∀ x ∈ d.methods, x.id.isText = true)
    (hfind : d.method? (.text name) = .ok (some m)) (hmeans : d.Means name id) :
    m.id = .text id ↔ ¬d.Shadows name id := by
  obtain ⟨hanswers, before, after, hmethods, hbefore⟩ := (method?_text_eq_some_iff hids).mp hfind
  constructor
  · rintro hid ⟨before', x, after', hmethods', hx, hothers⟩
    have hfirst : before ++ [m] <+: d.methods := ⟨after, by simp [hmethods]⟩
    have hshadow : before' ++ [x] <+: d.methods := ⟨after', by simp [hmethods']⟩
    have hm : m ∉ before' ++ [x] := fun hm => hothers m hm hid
    rcases List.prefix_or_prefix_of_prefix hfirst hshadow with hstart | hstart
    · exact hm (hstart.subset (by simp))
    · rcases List.mem_append.mp (hstart.subset (by simp : x ∈ before' ++ [x])) with hmem | hmem
      · exact hbefore x hmem hx
      · rw [List.mem_singleton.mp hmem] at hm
        exact hm (by simp)
  · intro hshadows
    apply Classical.byContradiction
    intro hid
    refine hshadows ⟨before, m, after, hmethods, hanswers, fun x hx => ?_⟩
    rcases List.mem_append.mp hx with hx | hx
    · exact fun h => hbefore x hx (hmeans.answers h)
    · rw [List.mem_singleton.mp hx]
      exact hid

/-- The look-up of a name finds the method that is meant, and the same one under its own identifier,
exactly if it is not shadowed; a name that is no fragment finds nothing else. -/
theorem lookup_finds_meant_iff {d : Document} (hids : ∀ m ∈ d.methods, m.id.isText = true)
    (name : String) :
    (∀ id, d.Means name id → ∃ m ∈ d.methods, d.method? (.text name) = .ok (some m) ∧
      (m.id = .text id ↔ ¬d.Shadows name id) ∧
      (m.id = .text id → d.method? (.text id) = .ok (some m))) ∧
    (Text.beginsWith "#" name = false → ¬d.Shadows name name ∧
      ((∀ m ∈ d.methods, m.id ≠ .text name) → d.method? (.text name) = .ok none)) := by
  refine ⟨fun id hmeans => ?_, fun hbegins => ⟨not_shadows_of_not_beginsWith hbegins, fun hnone => ?_⟩⟩
  · obtain ⟨x, hx, hid⟩ := hmeans.exists_mem
    obtain ⟨m, hfind⟩ := exists_method?_of_answers hids hx (hmeans.answers hid)
    obtain ⟨-, before, after, hmethods, hbefore⟩ := (method?_text_eq_some_iff hids).mp hfind
    refine ⟨m, by simp [hmethods], hfind, id_eq_iff_not_shadows hids hfind hmeans, fun hid => ?_⟩
    apply (method?_text_eq_some_iff hids).mpr
    exact ⟨.inl hid, before, after, hmethods,
      fun y hy hanswers => hbefore y hy (hmeans.answers_of_answers hanswers)⟩
  · apply (method?_text_eq_none_iff hids).mpr
    rintro m hm (hid | ⟨hyes, -⟩)
    · exact hnone m hm hid
    · exact absurd (hbegins.symm.trans hyes) Bool.false_ne_true

/-- A document with methods of the given identifiers. -/
def ofIds (id : String) (ids : List String) : Document :=
  ⟨.text id, ids.map fun s => ⟨.text s, .text "JsonWebKey2020", .text id, .null⟩⟩

theorem isText_ofIds (id : String) (ids : List String) :
    ∀ m ∈ (ofIds id ids).methods, m.id.isText = true := by
  intro m hm
  obtain ⟨s, -, rfl⟩ := List.mem_map.mp hm
  rfl

theorem means_ofIds_fragment {did name : String} {ids : List String}
    (hbegins : Text.beginsWith "#" name = true) (hname : name ∉ ids) (hid : did ++ name ∈ ids) :
    (ofIds did ids).Means name (did ++ name) := by
  refine .fragment rfl hbegins ?_ ⟨_, List.mem_map_of_mem hid, rfl⟩
  intro m hm heq
  obtain ⟨s, hs, rfl⟩ := List.mem_map.mp hm
  obtain rfl := Value.text.inj heq
  exact hname hs

theorem finds_own_fragment :
    ∃ m, (ofIds "d" ["d#g", "d#f"]).method? (.text "#f") = .ok (some m) ∧ m.id = .text "d#f" := by
  have hmeans : (ofIds "d" ["d#g", "d#f"]).Means "#f" ("d" ++ "#f") :=
    means_ofIds_fragment (by decide) (by decide) (by decide)
  obtain ⟨m, -, hfind, hid, -⟩ := (lookup_finds_meant_iff (isText_ofIds _ _) "#f").1 _ hmeans
  refine ⟨m, hfind, hid.mpr (not_shadows_of_unique fun x hx hanswers => ?_)⟩
  obtain ⟨s, hs, rfl⟩ := List.mem_map.mp hx
  have hends : Text.endsWith "#f" s = true := by
    rcases hanswers with hid | ⟨-, front, hid⟩
    · rw [Value.text.inj hid]
      decide
    · exact Text.endsWith_iff.mpr ⟨front, Value.text.inj hid⟩
  rcases List.mem_pair.mp hs with rfl | rfl
  · exact absurd hends (by decide)
  · rfl

/-- A fragment finds the method of another document before that of its own, and one with a longer
identifier before the one that has the fragment for its identifier. -/
theorem meant_not_found :
    (∃ m, (ofIds "d" ["other#f", "d#f"]).Means "#f" "d#f" ∧
      (ofIds "d" ["other#f", "d#f"]).method? (.text "#f") = .ok (some m) ∧ m.id = .text "other#f") ∧
    ∃ m, (ofIds "d" ["d#f", "#f"]).Means "#f" "#f" ∧
      (ofIds "d" ["d#f", "#f"]).method? (.text "#f") = .ok (some m) ∧ m.id = .text "d#f" := by
  refine ⟨⟨_, ?_, rfl, rfl⟩, ⟨_, ?_, rfl, rfl⟩⟩
  · exact means_ofIds_fragment (by decide) (by decide) (by decide)
  · exact .whole ⟨_, List.mem_map_of_mem (by decide : "#f" ∈ ["d#f", "#f"]), rfl⟩

end Document

end Attest
