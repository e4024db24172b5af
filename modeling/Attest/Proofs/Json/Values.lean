import Attest.Json.Reader
import Attest.Json.Writer
import Attest.Proofs.Json.Numbers
import Attest.Proofs.Json.Strings
import Attest.Proofs.Value.WellFormed

/-! JSON text is read back. Whatever follows a value that is no part of a number does not change how
the value is read, and as much fuel as the text has characters is enough; from this every value is read
by induction on its parts. -/

namespace Attest.Json

/-- Commas and colons are followed by blanks only. -/
structure Style.Readable (style : Style) : Prop where
  comma : ∃ blanks, style.comma = ',' :: blanks ∧ ∀ c ∈ blanks, isBlank c = true
  colon : ∃ blanks, style.colon = ':' :: blanks ∧ ∀ c ∈ blanks, isBlank c = true

theorem Style.readable_spaced : spaced.Readable :=
  ⟨⟨[' '], rfl, List.forall_mem_singleton.mpr rfl⟩, ⟨[' '], rfl, List.forall_mem_singleton.mpr rfl⟩⟩

theorem Style.readable_compactAscii : compactAscii.Readable := ⟨⟨[], rfl, nofun⟩, ⟨[], rfl, nofun⟩⟩

/-- A text begins neither with a blank nor with the end of a list. -/
def Begins (cs : List Char) : Prop := ∃ c rest, cs = c :: rest ∧ isBlank c = false ∧ c ≠ ']'

theorem Begins.append {cs : List Char} (h : Begins cs) (ds : List Char) : Begins (cs ++ ds) := by
  obtain ⟨c, rest, rfl, hblank, hend⟩ := h
  exact ⟨c, rest ++ ds, rfl, hblank, hend⟩

theorem begins_stringChars (asciiOnly : Bool) (cs : List Char) : Begins (stringChars asciiOnly cs) :=
  ⟨'"', _, rfl, rfl, by decide⟩

theorem begins_numeral {n : Numeral} (hn : n.Regular) : Begins n.chars := by
  obtain ⟨c, cs, hchars, hdigit⟩ := Numeral.exists_head hn
  refine ⟨c, cs, hchars, ?_, ?_⟩
  · rcases hdigit with rfl | hdigit
    · rfl
    · simp [isBlank, ne_of_isDigit hdigit (show ' '.isDigit = false from rfl),
        ne_of_isDigit hdigit (show '\n'.isDigit = false from rfl),
        ne_of_isDigit hdigit (show '\t'.isDigit = false from rfl),
        ne_of_isDigit hdigit (show '\r'.isDigit = false from rfl)]
  · rcases hdigit with rfl | hdigit
    · decide
    · exact ne_of_isDigit hdigit rfl

theorem begins_floatChars (x : Binary64) : Begins (floatChars x) := by
  cases x with
  | nan => exact ⟨_, _, rfl, rfl, by decide⟩
  | infinity negative => cases negative <;> exact ⟨_, _, rfl, rfl, by decide⟩
  | finite negative e f =>
    obtain ⟨n, hn, -, hchars, -⟩ := exists_numeral_floatChars negative e f
    rw [hchars]
    exact begins_numeral hn

theorem begins_chars (style : Style) (v : Value) : Begins (chars style v) := by
  cases v with
  | bool b => cases b <;> exact ⟨_, _, rfl, rfl, by decide⟩
  | int i =>
    rw [chars, intChars_eq]
    exact begins_numeral (regular_intNumeral i)
  | float x =>
    rw [chars]
    exact begins_floatChars x
  | text s =>
    rw [chars]
    exact begins_stringChars _ _
  | list items =>
    cases items with
    | nil => exact ⟨'[', _, by rw [chars], rfl, by decide⟩
    | cons v rest => exact ⟨'[', _, by rw [chars, List.cons_append], rfl, by decide⟩
  | object members =>
    cases members with
    | nil => exact ⟨'{', _, by rw [chars], rfl, by decide⟩
    | cons m rest => exact ⟨'{', _, by rw [chars]; rfl, rfl, by decide⟩
  | _ => exact ⟨'n', _, by rw [chars]; rfl, rfl, by decide⟩

theorem skipBlanks_of_begins {cs : List Char} (h : Begins cs) : skipBlanks cs = cs := by
  obtain ⟨c, rest, rfl, hblank, -⟩ := h
  rw [skipBlanks, List.dropWhile_cons_of_neg (by simp [hblank])]

theorem skipBlanks_append {blanks cs : List Char} (hblanks : ∀ c ∈ blanks, isBlank c = true)
    (h : Begins cs) : skipBlanks (blanks ++ cs) = cs := by
  rw [skipBlanks, List.dropWhile_append_of_pos hblanks]
  exact skipBlanks_of_begins h

variable {limit fuel : Nat} {style : Style} {cs more rest : List Char} {v : Value}

/-- A text is read as a value, with any fuel from its length on, if no more of a number follows. -/
def Reads (limit : Nat) (cs : List Char) (v : Value) : Prop :=
  ∀ fuel rest, cs.length ≤ fuel → EndsNumeral rest → value limit fuel (cs ++ rest) = .ok (v, rest)

theorem reads_of_scalar {c : Char} (hquote : c ≠ '"') (hlist : c ≠ '[') (hobject : c ≠ '{')
    (h : ∀ rest, EndsNumeral rest → scalar limit (c :: cs ++ rest) = .ok (v, rest)) :
    Reads limit (c :: cs) v := by
  intro fuel rest hfuel hrest
  cases fuel with
  | zero => exact absurd hfuel (by simp)
  | succ fuel =>
    rw [← h rest hrest]
    simp [value, hquote, hlist, hobject]

theorem reads_numeral {n : Numeral} (hn : n.Regular)
    (h : ∀ rest, EndsNumeral rest → scalar limit (n.chars ++ rest) = .ok (v, rest)) :
    Reads limit n.chars v := by
  obtain ⟨c, cs, hchars, hdigit⟩ := Numeral.exists_head hn
  rw [hchars] at h ⊢
  rcases hdigit with rfl | hdigit
  · exact reads_of_scalar (by decide) (by decide) (by decide) h
  · exact reads_of_scalar (ne_of_isDigit hdigit rfl) (ne_of_isDigit hdigit rfl)
      (ne_of_isDigit hdigit rfl) h

theorem reads_intChars {i : Int} (hi : (Nat.toDigits 10 i.natAbs).length ≤ limit) :
    Reads limit (intChars i) (.int i) := by
  rw [intChars_eq]
  refine reads_numeral (regular_intNumeral i) fun rest hrest => ?_
  rw [← intChars_eq]
  exact scalar_intChars hi hrest

theorem reads_floatChars (x : Binary64) : Reads limit (floatChars x) (.float x) := by
  cases x with
  | nan => exact reads_of_scalar (by decide) (by decide) (by decide) fun _ _ => rfl
  | infinity negative =>
    cases negative <;> exact reads_of_scalar (by decide) (by decide) (by decide) fun _ _ => rfl
  | finite negative e f =>
    obtain ⟨n, hn, -, hchars, -⟩ := exists_numeral_floatChars negative e f
    rw [hchars]
    refine reads_numeral hn fun rest hrest => ?_
    rw [← hchars]
    exact scalar_floatChars _ hrest

theorem reads_stringChars (asciiOnly : Bool) (s : String) :
    Reads limit (stringChars asciiOnly s.toList) (.text s) := by
  intro fuel rest hfuel _
  cases fuel with
  | zero => exact absurd hfuel (by simp [stringChars])
  | succ fuel =>
    simp only [stringChars, List.cons_append, List.append_assoc, List.nil_append, value,
      string_append]

theorem items_last (hv : Reads limit cs v) (hfuel : cs.length ≤ fuel) (read : List Value) :
    items limit (fuel + 1) read (cs ++ ']' :: rest) = .ok (.list (read.reverse ++ [v]), rest) := by
  have hend : EndsNumeral (']' :: rest) :=
    endsNumeral_cons rest rfl (by decide) (by decide) (by decide)
  simp only [items, hv fuel _ hfuel hend]
  rw [List.reverse_cons]
  rfl

theorem items_next (hstyle : style.Readable) (hv : Reads limit cs v) (hfuel : cs.length ≤ fuel)
    (hmore : Begins more) (read : List Value) :
    items limit (fuel + 1) read (cs ++ (style.comma ++ more)) =
      items limit fuel (v :: read) more := by
  obtain ⟨blanks, hcomma, hblanks⟩ := hstyle.comma
  have hend : EndsNumeral (style.comma ++ more) := by
    rw [hcomma]
    exact endsNumeral_cons _ rfl (by decide) (by decide) (by decide)
  simp only [items, hv fuel _ hfuel hend]
  rw [hcomma, List.cons_append, show skipBlanks (',' :: (blanks ++ more)) = ',' :: (blanks ++ more)
    from rfl]
  simp only [skipBlanks_append hblanks hmore]

/-- The name, the colon and the value of a member. -/
def memberText (style : Style) (name : String) (cs : List Char) : List Char :=
  stringChars style.asciiOnly name.toList ++ (style.colon ++ cs)

theorem begins_memberText (style : Style) (name : String) (cs : List Char) :
    Begins (memberText style name cs) := (begins_stringChars _ _).append _

theorem memberText_append (style : Style) (name : String) (cs ds : List Char) :
    memberText style name cs ++ ds = memberText style name (cs ++ ds) := by
  simp only [memberText, List.append_assoc]

theorem length_memberText (style : Style) (name : String) (cs : List Char) :
    cs.length < (memberText style name cs).length := by
  simp [memberText, stringChars]
  omega

theorem members_name (hstyle : style.Readable) (hv : Reads limit cs v) (hbegins : Begins cs)
    (hfuel : cs.length ≤ fuel) (hend : EndsNumeral rest) (name : String)
    (read : List (String × Value)) :
    members limit (fuel + 1) read (memberText style name cs ++ rest) =
      match skipBlanks rest with
      | '}' :: rest => .ok (.object (Object.ofMembers ((name, v) :: read).reverse), rest)
      | ',' :: rest => members limit fuel ((name, v) :: read) (skipBlanks rest)
      | rest => .error (.problem .comma rest) := by
  obtain ⟨blanks, hcolon, hblanks⟩ := hstyle.colon
  have hskip : skipBlanks (style.colon ++ (cs ++ rest)) = ':' :: (blanks ++ (cs ++ rest)) := by
    rw [hcolon]
    rfl
  simp only [memberText, stringChars, List.cons_append, List.append_assoc, List.nil_append, members,
    string_append, hskip, skipBlanks_append hblanks (hbegins.append rest)]
  generalize hread : value limit fuel (cs ++ rest) = result
  obtain rfl : .ok (v, rest) = result := (hv fuel rest hfuel hend).symm.trans hread
  rfl

theorem members_last (hstyle : style.Readable) (hv : Reads limit cs v) (hbegins : Begins cs)
    (hfuel : cs.length ≤ fuel) (name : String) (read : List (String × Value)) :
    members limit (fuel + 1) read (memberText style name cs ++ '}' :: rest) =
      .ok (.object (Object.ofMembers (read.reverse ++ [(name, v)])), rest) := by
  rw [members_name hstyle hv hbegins hfuel
    (endsNumeral_cons rest rfl (by decide) (by decide) (by decide)), List.reverse_cons]
  rfl

theorem members_next (hstyle : style.Readable) (hv : Reads limit cs v) (hbegins : Begins cs)
    (hfuel : cs.length ≤ fuel) (hmore : Begins more) (name : String)
    (read : List (String × Value)) :
    members limit (fuel + 1) read (memberText style name cs ++ (style.comma ++ more)) =
      members limit fuel ((name, v) :: read) more := by
  obtain ⟨blanks, hcomma, hblanks⟩ := hstyle.comma
  rw [hcomma, List.cons_append, members_name hstyle hv hbegins hfuel
    (endsNumeral_cons _ rfl (by decide) (by decide) (by decide)),
    show skipBlanks (',' :: (blanks ++ more)) = ',' :: (blanks ++ more) from rfl]
  simp only [skipBlanks_append hblanks hmore]

theorem value_list (hcs : Begins cs) : value limit (fuel + 1) ('[' :: cs) = items limit fuel [] cs := by
  have hskip := skipBlanks_of_begins hcs
  obtain ⟨c, rest, rfl, -, hend⟩ := hcs
  simp [value, hskip, hend]

theorem value_object (style : Style) (name : String) (cs : List Char) :
    value limit (fuel + 1) ('{' :: memberText style name cs) =
      members limit fuel [] (memberText style name cs) := by
  have hskip := skipBlanks_of_begins (begins_memberText style name cs)
  simp only [memberText, stringChars, List.cons_append, List.append_assoc, List.nil_append]
    at hskip ⊢
  simp [value, hskip]

theorem reads_list_nil (style : Style) : Reads limit (chars style (.list [])) (.list []) := by
  intro fuel rest hfuel _
  cases fuel with
  | zero => exact absurd hfuel (by simp [chars])
  | succ fuel => simp [chars, value, skipBlanks, isBlank]

theorem reads_object_nil (style : Style) : Reads limit (chars style (.object [])) (.object []) := by
  intro fuel rest hfuel _
  cases fuel with
  | zero => exact absurd hfuel (by simp [chars])
  | succ fuel => simp [chars, value, skipBlanks, isBlank]

theorem reads_list (hbegins : Begins cs)
    (hitems : ∀ fuel rest, cs.length ≤ fuel → items limit fuel [] (cs ++ rest) = .ok (v, rest)) :
    Reads limit ('[' :: cs) v := by
  intro fuel rest hfuel _
  cases fuel with
  | zero => exact absurd hfuel (by simp)
  | succ fuel =>
    rw [List.cons_append, value_list (hbegins.append rest)]
    exact hitems fuel rest (by simpa using hfuel)

theorem reads_object {name : String}
    (hmembers : ∀ fuel rest, (memberText style name cs).length ≤ fuel →
      members limit fuel [] (memberText style name cs ++ rest) = .ok (v, rest)) :
    Reads limit ('{' :: memberText style name cs) v := by
  intro fuel rest hfuel _
  cases fuel with
  | zero => exact absurd hfuel (by simp)
  | succ fuel =>
    rw [List.cons_append, memberText_append, value_object, ← memberText_append]
    exact hmembers fuel rest (by simpa using hfuel)

theorem chars_list (style : Style) (v : Value) (vs : List Value) :
    chars style (.list (v :: vs)) = '[' :: (chars style v ++ itemChars style vs) := by
  rw [chars, List.cons_append]

theorem itemChars_cons (style : Style) (v : Value) (vs : List Value) :
    itemChars style (v :: vs) = style.comma ++ (chars style v ++ itemChars style vs) := by
  rw [itemChars, List.append_assoc]

theorem chars_object (style : Style) (name : String) (v : Value) (ms : List (String × Value)) :
    chars style (.object ((name, v) :: ms)) =
      '{' :: (memberText style name (chars style v) ++ memberChars style ms) := by
  rw [chars, memberText, List.cons_append, List.cons_append, List.cons_append, List.append_assoc,
    List.append_assoc, List.append_assoc, List.append_assoc]

theorem memberChars_cons (style : Style) (name : String) (v : Value) (ms : List (String × Value)) :
    memberChars style ((name, v) :: ms) =
      style.comma ++ (memberText style name (chars style v) ++ memberChars style ms) := by
  rw [memberChars, memberText]
  simp only [List.append_assoc]

theorem writeErrorItems?_eq_none_iff {vs : List Value} :
    writeErrorItems? vs = none ↔ ∀ v ∈ vs, writeError? v = none := by
  induction vs with
  | nil => simp [writeErrorItems?]
  | cons v rest ih =>
    rw [writeErrorItems?, List.forall_mem_cons, ← ih]
    cases writeError? v <;> simp

theorem writeErrorMembers?_eq_none_iff {ms : List (String × Value)} :
    writeErrorMembers? ms = none ↔ ∀ m ∈ ms, writeError? m.2 = none := by
  induction ms with
  | nil => simp [writeErrorMembers?]
  | cons m rest ih =>
    obtain ⟨name, v⟩ := m
    rw [writeErrorMembers?, List.forall_mem_cons, ← ih]
    cases writeError? v <;> simp

/-- A value that has JSON text: no whole number in it has too many digits, and there are no points in
time and no credentials in it. -/
def Writable (v : Value) : Prop := writeError? v = none

theorem writable_list_iff {vs : List Value} : Writable (.list vs) ↔ ∀ v ∈ vs, Writable v := by
  rw [Writable, writeError?, writeErrorItems?_eq_none_iff]
  rfl

theorem writable_object_iff {ms : Object} : Writable (.object ms) ↔ ∀ m ∈ ms, Writable m.2 := by
  rw [Writable, writeError?, writeErrorMembers?_eq_none_iff]
  rfl

mutual

/-- The text of a value is read as this value. -/
theorem reads_chars (hstyle : style.Readable) :
    (v : Value) → v.WellFormed → Writable v → Reads digitLimit (chars style v) v
  | .null, _, _ => by
    rw [chars]
    exact reads_of_scalar (by decide) (by decide) (by decide) fun _ _ => rfl
  | .bool true, _, _ => by
    rw [chars]
    exact reads_of_scalar (by decide) (by decide) (by decide) fun _ _ => rfl
  | .bool false, _, _ => by
    rw [chars]
    exact reads_of_scalar (by decide) (by decide) (by decide) fun _ _ => rfl
  | .int i, _, hwrite => by
    rw [chars]
    refine reads_intChars (Nat.le_of_not_lt fun hlimit => ?_)
    rw [Writable, writeError?, if_pos hlimit] at hwrite
    cases hwrite
  | .float x, _, _ => by
    rw [chars]
    exact reads_floatChars x
  | .text s, _, _ => by
    rw [chars]
    exact reads_stringChars _ s
  | .list [], _, _ => reads_list_nil style
  | .list (v :: vs), hwell, hwrite => by
    rw [Value.wellFormed_list_iff, List.forall_mem_cons] at hwell
    rw [writable_list_iff, List.forall_mem_cons] at hwrite
    have hv := reads_chars hstyle v hwell.1 hwrite.1
    rw [chars_list]
    refine reads_list ((begins_chars style v).append _) fun fuel rest hfuel => ?_
    rw [List.append_assoc]
    exact reads_itemChars hstyle vs hwell.2 hwrite.2 _ v [] fuel rest hv (by simpa using hfuel)
  | .object [], _, _ => reads_object_nil style
  | .object ((name, v) :: ms), hwell, hwrite => by
    rw [Value.wellFormed_object_iff, List.forall_mem_cons] at hwell
    rw [writable_object_iff, List.forall_mem_cons] at hwrite
    have hv := reads_chars hstyle v hwell.2.1 hwrite.1
    rw [chars_object, memberText_append]
    refine reads_object fun fuel rest hfuel => ?_
    rw [← memberText_append] at hfuel ⊢
    rw [List.append_assoc, reads_memberChars hstyle ms hwell.2.2 hwrite.2 _ name v [] fuel rest hv
        (begins_chars style v) (by simpa using hfuel), List.reverse_nil, List.nil_append,
      Object.ofMembers_of_nodup hwell.1]
  | .time t, _, hwrite => by
    rw [Writable, writeError?] at hwrite
    cases hwrite
  | .credential c, _, hwrite => by
    rw [Writable, writeError?] at hwrite
    cases hwrite

theorem reads_itemChars (hstyle : style.Readable) :
    (vs : List Value) → (∀ v ∈ vs, v.WellFormed) → (∀ v ∈ vs, Writable v) →
      ∀ cs v read fuel rest, Reads digitLimit cs v →
        cs.length + (itemChars style vs).length ≤ fuel →
        items digitLimit fuel read (cs ++ (itemChars style vs ++ rest)) =
          .ok (.list (read.reverse ++ v :: vs), rest)
  | [], _, _ => by
    intro cs v read fuel rest hv hfuel
    rw [itemChars] at hfuel ⊢
    cases fuel with
    | zero => exact absurd hfuel (by simp)
    | succ fuel => exact items_last hv (by simpa using hfuel) read
  | w :: ws, hwell, hwrite => by
    intro cs v read fuel rest hv hfuel
    rw [List.forall_mem_cons] at hwell hwrite
    have hw := reads_chars hstyle w hwell.1 hwrite.1
    rw [itemChars_cons] at hfuel ⊢
    have hcomma : 0 < style.comma.length := by
      obtain ⟨blanks, hcomma, -⟩ := hstyle.comma
      simp [hcomma]
    simp only [List.length_append] at hfuel
    cases fuel with
    | zero => omega
    | succ fuel =>
      rw [List.append_assoc, List.append_assoc,
        items_next hstyle hv (by omega) ((begins_chars style w).append _),
        reads_itemChars hstyle ws hwell.2 hwrite.2 _ w (v :: read) fuel rest hw (by omega),
        List.reverse_cons, List.append_assoc, List.singleton_append]

theorem reads_memberChars (hstyle : style.Readable) :
    (ms : List (String × Value)) → (∀ m ∈ ms, m.2.WellFormed) → (∀ m ∈ ms, Writable m.2) →
      ∀ cs name v read fuel rest, Reads digitLimit cs v → Begins cs →
        (memberText style name cs).length + (memberChars style ms).length ≤ fuel →
        members digitLimit fuel read (memberText style name cs ++ (memberChars style ms ++ rest)) =
          .ok (.object (Object.ofMembers (read.reverse ++ (name, v) :: ms)), rest)
  | [], _, _ => by
    intro cs name v read fuel rest hv hbegins hfuel
    rw [memberChars] at hfuel ⊢
    have hlength := length_memberText style name cs
    cases fuel with
    | zero => exact absurd hfuel (by simp)
    | succ fuel =>
      exact members_last hstyle hv hbegins (by simp at hfuel; omega) name read
  | (other, w) :: ms, hwell, hwrite => by
    intro cs name v read fuel rest hv hbegins hfuel
    rw [List.forall_mem_cons] at hwell hwrite
    have hw := reads_chars hstyle w hwell.1 hwrite.1
    rw [memberChars_cons] at hfuel ⊢
    have hlength := length_memberText style name cs
    simp only [List.length_append] at hfuel
    cases fuel with
    | zero => omega
    | succ fuel =>
      rw [List.append_assoc, List.append_assoc,
        members_next hstyle hv hbegins (by omega) ((begins_memberText style other _).append _),
        reads_memberChars hstyle ms hwell.2 hwrite.2 _ other w ((name, v) :: read) fuel rest hw
          (begins_chars style w) (by omega),
        List.reverse_cons, List.append_assoc, List.singleton_append]

end

/-- A text that `write` gives is read as the value that was written. -/
theorem readText_chars (hstyle : style.Readable) (hwell : v.WellFormed) (hwrite : Writable v) :
    readText digitLimit (chars style v) = .ok v := by
  have hread := reads_chars hstyle v hwell hwrite (2 * (chars style v).length + 1) []
    (by omega) endsNumeral_nil
  rw [List.append_nil] at hread
  simp only [readText, document, skipBlanks_of_begins (begins_chars style v), hread]
  rfl

end Attest.Json
