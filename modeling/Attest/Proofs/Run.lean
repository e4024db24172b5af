import Attest.Resolution.Session

/-! Results and runs in two steps: when the whole succeeds, and what each way to make a run does to
the session. Later proofs take a run apart with these lemmas and do not look inside one. -/

namespace Attest

namespace Except

variable {ε ε' α β γ : Type}

theorem ok_eq_ok_iff {a b : α} : (Except.ok a : Except ε α) = .ok b ↔ b = a := by
  rw [Except.ok.injEq, eq_comm]

theorem bind_eq_ok_iff {x : Except ε α} {f : α → Except ε β} {b : β} :
    (x >>= f) = .ok b ↔ ∃ a, x = .ok a ∧ f a = .ok b := by
  cases x <;> simp [bind, Except.bind]

theorem bind_eq_error_iff {x : Except ε α} {f : α → Except ε β} {e : ε} :
    (x >>= f) = .error e ↔ x = .error e ∨ ∃ a, x = .ok a ∧ f a = .error e := by
  cases x <;> simp [bind, Except.bind]

/-- What is made of the results of two steps is an error exactly if one of the steps is. -/
theorem bind_bind_pure_eq_error_iff {x : Except ε α} {f : α → Except ε β} {g : α → β → γ} {e : ε} :
    (x >>= fun a => f a >>= fun b => pure (g a b)) = .error e ↔
      x = .error e ∨ ∃ a, x = .ok a ∧ f a = .error e := by
  rw [bind_eq_error_iff]
  refine or_congr_right (exists_congr fun a => and_congr_right fun _ => ?_)
  rw [bind_eq_error_iff]
  exact or_iff_left nofun

@[simp] theorem mapError_ok (f : ε → ε') (a : α) :
    (Except.ok a : Except ε α).mapError f = .ok a := rfl

@[simp] theorem mapError_error (f : ε → ε') (e : ε) :
    (Except.error e : Except ε α).mapError f = .error (f e) := rfl

theorem mapError_eq_ok_iff {x : Except ε α} {f : ε → ε'} {a : α} :
    x.mapError f = .ok a ↔ x = .ok a := by
  cases x <;> simp

theorem mapError_eq_error_iff {x : Except ε α} {f : ε → ε'} {e' : ε'} :
    x.mapError f = .error e' ↔ ∃ e, x = .error e ∧ f e = e' := by
  cases x <;> simp

theorem map_eq_ok_iff {x : Except ε α} {f : α → β} {b : β} :
    x.map f = .ok b ↔ ∃ a, x = .ok a ∧ f a = b := by
  cases x <;> simp [Except.map]

theorem map_eq_error_iff {x : Except ε α} {f : α → β} {e : ε} :
    x.map f = .error e ↔ x = .error e := by
  cases x <;> simp [Except.map]

theorem toOption_eq_some_iff {x : Except ε α} {a : α} : x.toOption = some a ↔ x = .ok a := by
  cases x with
  | ok b => exact ⟨fun h => congrArg Except.ok (Option.some.inj h),
      fun h => congrArg some (Except.ok.inj h)⟩
  | error e => exact ⟨nofun, nofun⟩

/-- The error that a result is, if it is one. -/
def error? : Except ε α → Option ε
  | .ok _ => none
  | .error e => some e

theorem error?_eq_some_iff {x : Except ε α} {e : ε} : error? x = some e ↔ x = .error e := by
  cases x <;> simp [error?]

theorem exists_of_error? {x : Except ε α} {f : ε → β} {b : β} (h : (error? x).map f = some b) :
    ∃ e, x = .error e ∧ f e = b := by
  obtain ⟨e, he, hb⟩ := Option.map_eq_some_iff.mp h
  exact ⟨e, error?_eq_some_iff.mp he, hb⟩

theorem exists_of_isOk {x : Except ε α} (h : x.isOk = true) : ∃ a, x = .ok a := by
  cases x with
  | ok a => exact ⟨a, rfl⟩
  | error e => cases h

/-- Steps for the items of a list all succeed if they do so one after the other. -/
theorem forM_eq_ok_iff {xs : List α} {f : α → Except ε Unit} {u : Unit} :
    xs.forM f = .ok u ↔ ∀ x ∈ xs, f x = .ok () := by
  induction xs with
  | nil => exact iff_of_true rfl nofun
  | cons x rest ih =>
    show (f x >>= fun _ => rest.forM f) = .ok u ↔ _
    rw [bind_eq_ok_iff, List.forall_mem_cons, ← ih]
    exact ⟨fun ⟨_, hx, hrest⟩ => ⟨hx, hrest⟩, fun ⟨hx, hrest⟩ => ⟨(), hx, hrest⟩⟩

end Except

namespace Session

/-- A session in which nothing has happened, with a clock that stands still. -/
def initial : Session := ⟨Clock.steady (.int 0) (.int 0), [], []⟩

/-- The session after an event was written to the log. -/
def logged (s : Session) (e : Event) : Session := { s with log := s.log ++ [e] }

/-- The session after it was noted that a resolver is asked for an identifier. -/
def noted (s : Session) (did : Value) : Session := { s with asked := s.asked ++ [did] }

@[simp] theorem asked_logged (s : Session) (e : Event) : (s.logged e).asked = s.asked := rfl

@[simp] theorem asked_noted (s : Session) (did : Value) : (s.noted did).asked = s.asked ++ [did] :=
  rfl

end Session

namespace Run

variable {α β : Type} {s t u : Session}

@[simp] theorem pure_apply (a : α) (s : Session) : (pure a : Run α) s = (.ok a, s) := rfl

@[simp] theorem fail_apply (e : Error) (s : Session) : (fail e : Run α) s = (.error e, s) := rfl

@[simp] theorem ofExcept_apply (x : Except Error α) (s : Session) : ofExcept x s = (x, s) := rfl

theorem ofExcept_eq_iff {x y : Except Error α} : ofExcept x s = (y, t) ↔ x = y ∧ t = s := by
  rw [ofExcept_apply]
  constructor
  · intro h
    exact ⟨congrArg Prod.fst h, (congrArg Prod.snd h).symm⟩
  · rintro ⟨rfl, rfl⟩
    rfl

theorem ofExcept_eq_ok_iff {x : Except Error α} {a : α} :
    ofExcept x s = (.ok a, t) ↔ x = .ok a ∧ t = s := ofExcept_eq_iff

@[simp] theorem log_apply (e : Event) (s : Session) : log e s = (.ok (), s.logged e) := rfl

@[simp] theorem noteAsked_apply (did : Value) (s : Session) :
    noteAsked did s = (.ok (), s.noted did) := rfl

@[simp] theorem keepAsked_apply (run : Run α) (s : Session) :
    keepAsked run s = ((run s).1, { (run s).2 with asked := s.asked }) := rfl

theorem mapError_apply (f : Error → Error) (run : Run α) (s : Session) :
    mapError f run s = ((run s).1.mapError f, (run s).2) := by
  simp only [mapError, ExceptT.mk]
  rcases run s with ⟨_ | _, t⟩ <;> rfl

theorem bind_of_ok {x : Run α} {f : α → Run β} {a : α} (h : x s = (.ok a, t)) :
    (x >>= f) s = f a t := by
  simp [bind, ExceptT.bind, ExceptT.mk, StateT.bind, h, ExceptT.bindCont]

theorem bind_of_error {x : Run α} {f : α → Run β} {e : Error} (h : x s = (.error e, t)) :
    (x >>= f) s = (.error e, t) := by
  simp [bind, ExceptT.bind, ExceptT.mk, StateT.bind, h, ExceptT.bindCont]
  rfl

theorem bind_eq_ok_iff {x : Run α} {f : α → Run β} {b : β} :
    (x >>= f) s = (.ok b, u) ↔ ∃ a t, x s = (.ok a, t) ∧ f a t = (.ok b, u) := by
  constructor
  · intro h
    rcases hx : x s with ⟨e | a, t⟩
    · rw [bind_of_error hx] at h
      cases h
    · rw [bind_of_ok hx] at h
      exact ⟨a, t, rfl, h⟩
  · rintro ⟨a, t, hx, hf⟩
    rw [bind_of_ok hx, hf]

theorem bind_eq_error_iff {x : Run α} {f : α → Run β} {e : Error} :
    (x >>= f) s = (.error e, u) ↔
      x s = (.error e, u) ∨ ∃ a t, x s = (.ok a, t) ∧ f a t = (.error e, u) := by
  rcases hx : x s with ⟨e' | a, t⟩
  · rw [bind_of_error hx]
    constructor
    · intro h
      obtain ⟨he, rfl⟩ := Prod.mk.inj h
      exact .inl (congrArg (·, t) (congrArg Except.error (Except.error.inj he)))
    · rintro (h | ⟨a, t, h, -⟩)
      · obtain ⟨he, rfl⟩ := Prod.mk.inj h
        exact congrArg (·, t) (congrArg Except.error (Except.error.inj he))
      · cases h
  · rw [bind_of_ok hx]
    constructor
    · intro h
      exact .inr ⟨a, t, rfl, h⟩
    · rintro (h | ⟨a, t, h, hf⟩)
      · cases h
      · cases h
        exact hf

theorem exists_of_isOk {run : Run α} (h : Except.isOk (run s).1 = true) :
    ∃ a t, run s = (.ok a, t) := by
  obtain ⟨a, ha⟩ := Except.exists_of_isOk h
  exact ⟨a, (run s).2, Prod.ext ha rfl⟩

theorem exists_of_error? {run : Run α} {f : Error → β} {b : β}
    (h : (Except.error? (run s).1).map f = some b) : ∃ e t, run s = (.error e, t) ∧ f e = b := by
  obtain ⟨e, he, hb⟩ := Except.exists_of_error? h
  exact ⟨e, (run s).2, Prod.ext he rfl, hb⟩

theorem exists_of_toOption {run : Run α} {a : α} (h : (run s).1.toOption = some a) :
    ∃ t, run s = (.ok a, t) :=
  ⟨(run s).2, Prod.ext (Except.toOption_eq_some_iff.mp h) rfl⟩

@[simp] theorem ofExcept_bind_ok (a : α) (f : α → Run β) (s : Session) :
    (ofExcept (.ok a) >>= f) s = f a s := bind_of_ok rfl

@[simp] theorem ofExcept_bind_error (e : Error) (f : α → Run β) (s : Session) :
    (ofExcept (.error e) >>= f) s = (.error e, s) := bind_of_error rfl

@[simp] theorem log_bind (e : Event) (f : Unit → Run β) (s : Session) :
    (log e >>= f) s = f () (s.logged e) := bind_of_ok rfl

end Run

end Attest
