import TraceRecovery.Json.Parser
import TraceRecovery.Json.Printer

/-!
# Reading back compact documents

The compact text of a value without numbers, all of whose strings and keys have texts, is read back
as that value (`Textual.ofText?_toCompact`). The value is found at the start of any text that
begins with its own (`Textual.readsBack`): a string ends at its closing quote, an array and an object
at the bracket behind the last of their parts, and no part begins with white space or a closing
bracket. The length of a text bounds the steps that reading it takes.
-/

namespace TraceRecovery.Json

/-- Members whose keys have texts. -/
def keyed (ms : List (String × Json)) : List (Option String × Json) :=
  ms.map fun m => (some m.1, m.2)

@[simp]
theorem keyed_nil : keyed [] = [] := rfl

@[simp]
theorem keyed_cons (m : String × Json) (ms : List (String × Json)) :
    keyed (m :: ms) = (some m.1, m.2) :: keyed ms := rfl

theorem record_eq (ms : List (String × Json)) : record ms = .object (keyed ms) := rfl

/-- Values without numbers, all of whose strings and keys have texts. -/
inductive Textual : Json → Prop
  | null : Textual .null
  | bool (b : Bool) : Textual (.bool b)
  | text (s : String) : Textual (.text s)
  | array {vs : List Json} : (∀ v ∈ vs, Textual v) → Textual (.array vs)
  | record {ms : List (String × Json)} : (∀ m ∈ ms, Textual m.2) → Textual (.record ms)

variable {v : Json} {vs : List Json} {ms : List (String × Json)}

theorem textual_array_map {α : Type} {write : α → Json} (h : ∀ x, Textual (write x))
    (xs : List α) : Textual (.array (xs.map write)) :=
  .array fun v hv => by
    obtain ⟨x, -, rfl⟩ := List.mem_map.mp hv
    exact h x

theorem textual_texts (ss : List String) : Textual (.texts ss) := textual_array_map .text ss

/-! ## Starts of texts -/

/-- The characters that the text of a value without numbers can start with. -/
def openers : List Char := ['n', 't', 'f', '"', '[', '\x7b']

theorem Textual.exists_opener (h : Textual v) : ∃ c ∈ openers, ∃ cs, compact v = c :: cs := by
  cases h with
  | null => exact ⟨'n', by decide, _, rfl⟩
  | bool b =>
    cases b
    · exact ⟨'f', by decide, _, rfl⟩
    · exact ⟨'t', by decide, _, rfl⟩
  | text s => exact ⟨'"', by decide, _, rfl⟩
  | @array vs _ => cases vs <;> exact ⟨'[', by decide, _, rfl⟩
  | @record ms _ => cases ms <;> exact ⟨'\x7b', by decide, _, rfl⟩

theorem skipSpace_cons {c : Char} (hc : c ∉ [' ', '\t', '\n', '\r']) (cs : List Char) :
    skipSpace (c :: cs) = c :: cs :=
  List.dropWhile_cons_of_neg (by simpa [or_assoc] using hc)

theorem skipSpace_opener {c : Char} (hc : c ∈ openers) (cs : List Char) :
    skipSpace (c :: cs) = c :: cs := by
  have hspace : ∀ c ∈ openers, c ∉ [' ', '\t', '\n', '\r'] := by simp [openers]
  exact skipSpace_cons (hspace c hc) cs

theorem Textual.skipSpace_compact (h : Textual v) (rest : List Char) :
    skipSpace (compact v ++ rest) = compact v ++ rest := by
  obtain ⟨c, hc, cs, hv⟩ := h.exists_opener
  rw [hv, List.cons_append, skipSpace_opener hc]

/-- A string is read back from between its quotes. -/
theorem readString_escaped (s : String) (rest : List Char) :
    readString (escaped s.toList ++ '"' :: rest) = some (some s, rest) := by
  simp only [readString, readBody_escaped, Option.map_some, assemble?_chars, String.ofList_toList]

theorem quoted_append (s : String) (rest : List Char) :
    quoted (some s) ++ rest = '"' :: (escaped s.toList ++ '"' :: rest) := by
  simp [quoted]

/-! ## Values at the start of a text -/

/-- A value is found at the start of every text that begins with its own. -/
def ReadsBack (v : Json) : Prop :=
  ∀ (rest : List Char) (steps : Nat), (compact v).length ≤ steps →
    readValue steps (compact v ++ rest) = some (v, rest)

/-- The first element of an array is read, and the mark behind it decides how to go on. -/
theorem readElements_of_readValue {s after : List Char} {steps : Nat}
    (hread : readValue steps s = some (v, after)) :
    readElements (steps + 1) s = match skipSpace after with
      | ',' :: rest => (readElements steps (skipSpace rest)).map fun p => (v :: p.1, p.2)
      | ']' :: rest => some ([v], rest)
      | _ => none := by
  rw [readElements, hread]
  simp only [Option.bind_eq_bind, Option.bind_some, Option.map_eq_bind]
  rfl

theorem readElements_compact (hvs : ∀ u ∈ v :: vs, Textual u ∧ ReadsBack u) (rest : List Char)
    (steps : Nat) (hsteps : (compact v).length + (compactElements vs).length ≤ steps) :
    readElements steps (compact v ++ (compactElements vs ++ rest)) = some (v :: vs, rest) := by
  have hv := (hvs v List.mem_cons_self).2
  -- The mark behind each element pays for the step that is taken on the list.
  induction vs generalizing v steps with
  | nil =>
    rw [compactElements, List.length_singleton] at hsteps
    obtain ⟨steps, rfl⟩ := Nat.exists_eq_add_one.mpr (by omega : 0 < steps)
    rw [readElements_of_readValue (hv _ steps (by omega))]
    simp [compactElements, skipSpace_cons]
  | cons u us ih =>
    have hlength : (compactElements (u :: us)).length =
        (compact u).length + (compactElements us).length + 1 := by
      simp [compactElements]
    obtain ⟨steps, rfl⟩ := Nat.exists_eq_add_one.mpr (by omega : 0 < steps)
    obtain ⟨htextual, hu⟩ := hvs u (List.mem_cons_of_mem v List.mem_cons_self)
    have hmore : readElements steps (compact u ++ (compactElements us ++ rest)) =
        some (u :: us, rest) :=
      ih (fun w hw => hvs w (List.mem_cons_of_mem v hw)) steps (by omega) hu
    rw [readElements_of_readValue (hv _ steps (by omega))]
    simp [compactElements, skipSpace_cons, htextual.skipSpace_compact, hmore]

/-- The first member of an object is read, and the mark behind it decides how to go on. -/
theorem readMembers_of_readValue {k : String} {after : List Char} {steps : Nat}
    (htextual : Textual v) (hread : readValue steps (compact v ++ after) = some (v, after)) :
    readMembers (steps + 1) (quoted (some k) ++ ':' :: (compact v ++ after)) =
      match skipSpace after with
      | ',' :: rest => (readMembers steps (skipSpace rest)).map fun p => ((some k, v) :: p.1, p.2)
      | '\x7d' :: rest => some ([(some k, v)], rest)
      | _ => none := by
  rw [quoted_append, readMembers, readString_escaped]
  simp only [Option.bind_eq_bind, Option.bind_some, skipSpace_cons (by decide : ':' ∉ _),
    htextual.skipSpace_compact, hread, Option.map_eq_bind]
  rfl

theorem readMembers_compact {k : String}
    (hms : ∀ m ∈ (k, v) :: ms, Textual m.2 ∧ ReadsBack m.2) (rest : List Char) (steps : Nat)
    (hsteps : (quoted (some k)).length + (compact v).length +
      (compactMembers (keyed ms)).length ≤ steps) :
    readMembers steps
        (quoted (some k) ++ ':' :: (compact v ++ (compactMembers (keyed ms) ++ rest))) =
      some (keyed ((k, v) :: ms), rest) := by
  obtain ⟨htextual, hv⟩ := hms (k, v) List.mem_cons_self
  dsimp only at htextual hv
  induction ms generalizing k v steps with
  | nil =>
    rw [keyed_nil, compactMembers, List.length_singleton] at hsteps
    obtain ⟨steps, rfl⟩ := Nat.exists_eq_add_one.mpr (by omega : 0 < steps)
    rw [readMembers_of_readValue htextual (hv _ steps (by omega))]
    simp [compactMembers, skipSpace_cons]
  | cons m ms ih =>
    obtain ⟨l, u⟩ := m
    have hlength : (compactMembers (keyed ((l, u) :: ms))).length =
        (quoted (some l)).length + (compact u).length + (compactMembers (keyed ms)).length + 2 := by
      simp [compactMembers]
      omega
    obtain ⟨steps, rfl⟩ := Nat.exists_eq_add_one.mpr (by omega : 0 < steps)
    obtain ⟨htextual', hu⟩ := hms (l, u) (List.mem_cons_of_mem _ List.mem_cons_self)
    have hmore : readMembers steps
        (quoted (some l) ++ ':' :: (compact u ++ (compactMembers (keyed ms) ++ rest))) =
          some (keyed ((l, u) :: ms), rest) :=
      ih (fun w hw => hms w (List.mem_cons_of_mem _ hw)) steps (by omega) htextual' hu
    rw [readMembers_of_readValue htextual (hv _ steps (by omega))]
    rw [quoted_append] at hmore
    simp [compactMembers, quoted_append, skipSpace_cons, hmore]

/-- An array that does not end at once has elements. -/
theorem readValue_bracket {c : Char} (hc : c ∈ openers) (cs : List Char) (steps : Nat) :
    readValue (steps + 1) ('[' :: c :: cs) =
      (readElements steps (c :: cs)).map fun p => (.array p.1, p.2) := by
  have hclose : c ≠ ']' := by
    rintro rfl
    exact absurd hc (by decide)
  simp [readValue, skipSpace_opener hc, hclose]

/-- An object that does not end at once has members. -/
theorem readValue_brace (cs : List Char) (steps : Nat) :
    readValue (steps + 1) ('\x7b' :: '"' :: cs) =
      (readMembers steps ('"' :: cs)).map fun p => (.object p.1, p.2) := by
  simp [readValue, skipSpace_cons]

/-- At least one step is taken, because no text is empty. -/
theorem Textual.readsBack_of_succ (h : Textual v)
    (hread : ∀ (rest : List Char) (steps : Nat), (compact v).length ≤ steps + 1 →
      readValue (steps + 1) (compact v ++ rest) = some (v, rest)) : ReadsBack v := by
  intro rest steps hsteps
  obtain ⟨c, -, cs, hcs⟩ := h.exists_opener
  have hpos : 0 < (compact v).length := by simp [hcs]
  obtain ⟨steps, rfl⟩ := Nat.exists_eq_add_one.mpr (Nat.lt_of_lt_of_le hpos hsteps)
  exact hread rest steps hsteps

/-- Every textual value is found at the start of the texts that begin with its own. -/
theorem Textual.readsBack (h : Textual v) : ReadsBack v := by
  induction h with
  | null => exact null.readsBack_of_succ fun _ _ _ => rfl
  | bool b =>
    refine (bool b).readsBack_of_succ fun _ _ _ => ?_
    cases b <;> rfl
  | text s =>
    refine (text s).readsBack_of_succ fun rest steps _ => ?_
    rw [Json.text, compact, quoted_append]
    simp [readValue, readString_escaped]
  | @array vs hvs ih =>
    refine (array hvs).readsBack_of_succ fun rest steps hsteps => ?_
    cases vs with
    | nil => simp [compact, readValue, skipSpace_cons]
    | cons v vs =>
      -- The first element does not start with the bracket that would close an empty array.
      obtain ⟨c, hc, cs, hcs⟩ := (hvs v List.mem_cons_self).exists_opener
      have helements := readElements_compact (fun u hu => ⟨hvs u hu, ih u hu⟩) rest steps
        (by simpa [compact] using hsteps)
      rw [hcs, List.cons_append] at helements
      rw [compact, hcs]
      simp only [List.cons_append, List.append_assoc, readValue_bracket hc, helements,
        Option.map_some]
  | @record ms hms ih =>
    -- Members start with the quote of their key, so here the values' own starts do not matter.
    refine (record hms).readsBack_of_succ fun rest steps hsteps => ?_
    cases ms with
    | nil => simp [record_eq, compact, readValue, skipSpace_cons]
    | cons m ms =>
      obtain ⟨k, v⟩ := m
      have hlength : (quoted (some k)).length + (compact v).length +
          (compactMembers (keyed ms)).length ≤ steps := by
        simp only [record_eq, keyed_cons, compact, List.length_append, List.length_cons] at hsteps
        omega
      have hmembers :=
        readMembers_compact (fun m hm => ⟨hms m hm, ih m hm⟩) rest steps hlength
      rw [quoted_append] at hmembers
      rw [record_eq, keyed_cons, compact]
      simp [quoted_append, readValue_brace, hmembers]

/-- A textual document is read back from its compact text. -/
theorem Textual.ofText?_toCompact (h : Textual v) : ofText? v.toCompact = some v := by
  have hread := h.readsBack [] (2 * (compact v).length + 2) (by omega)
  rw [List.append_nil] at hread
  have hstart := h.skipSpace_compact []
  rw [List.append_nil] at hstart
  rw [ofText?, toCompact, String.toList_ofList, ofChars?, hstart, hread]
  rfl

end TraceRecovery.Json
