import TraceRecovery.Name.Words
import TraceRecovery.Proofs.Text.Letters
import TraceRecovery.Text.Pieces

/-!
# Spellings of a name

The words of a name do not depend on how it is spelled. A reader looks at one character ahead, but
the only thing that matters of it is whether it is a small letter. So a text can be read in two parts
if the second one does not begin with a small letter (`WordReader.readAll_append`), and the words
that ended in the first part stay as they are (`WordReader.readAll_behind`).

* `Name.words_append_separator`, `Name.words_append_capital`: the words of a name in two parts, with
  a separator between them or with a capital at the start of the second one;
* `Name.words_join_separator`, `Name.words_join_capital`: the same for any number of parts;
* `Name.words_of_letters`: letters without a change to upper case are a single word;
* `Name.words_undo_spelling`: so a list of words is read off each of its spellings.
-/

namespace TraceRecovery.Name

open Text

/-! ## Reading in parts -/

namespace WordReader

variable {r : WordReader} {ws : List String} {cs ds : List Char} {a c d : Char}
  {next? : Option Char}

/-- A reader that has come across some more words before. -/
def behind (ws : List String) (r : WordReader) : WordReader := ⟨ws ++ r.ended, r.current⟩

theorem eq_behind_start (h : r.current = []) : r = start.behind r.ended := by
  rw [behind, start, List.append_nil, ← h]

theorem flush_behind (ws : List String) (r : WordReader) :
    (r.behind ws).flush = r.flush.behind ws := by
  by_cases h : r.current = []
  · rw [flush_of_nil h, flush_of_nil (r := r.behind ws) h]
  · rw [flush_of_ne_nil h, flush_of_ne_nil (r := r.behind ws) h, behind, behind, List.append_assoc]

theorem read_behind (ws : List String) (r : WordReader) (c : Char) (next? : Option Char) :
    (r.behind ws).read c next? = (r.read c next?).behind ws := by
  cases hc : isAlphanumeric c with
  | false => rw [read_separator hc, read_separator hc, flush_behind]
  | true =>
    cases hb : r.current.getLast?.any fun a => breaksBetween a c next? with
    | true => rw [read_break hc hb, read_break (r := r.behind ws) hc hb, flush_behind, behind, behind]
    | false => rw [read_join hc hb, read_join (r := r.behind ws) hc hb, behind, behind]

/-- Words that have ended stay as they are. -/
theorem readAll_behind (ws : List String) (r : WordReader) (cs : List Char) :
    (r.behind ws).readAll cs = (r.readAll cs).behind ws := by
  induction cs generalizing r with
  | nil => rfl
  | cons c rest ih => rw [readAll, readAll, read_behind, ih]

/-- All that matters of the character ahead is whether it is a small letter. -/
theorem read_some (h : isLowercase d = false) (r : WordReader) (c : Char) :
    r.read c (some d) = r.read c none := by
  have hbreaks : ∀ a, breaksBetween a c (some d) = breaksBetween a c none := fun a => by
    simp [breaksBetween, h]
  simp only [read, hbreaks]

theorem readAll_append (h : isLowercase d = false) (r : WordReader) (cs ds : List Char) :
    r.readAll (cs ++ d :: ds) = (r.readAll cs).readAll (d :: ds) := by
  induction cs generalizing r with
  | nil => rfl
  | cons c rest ih =>
    have hread : r.read c (rest ++ d :: ds).head? = r.read c rest.head? := by
      cases rest with
      | nil => exact read_some h r c
      | cons e rest => rfl
    rw [List.cons_append, readAll, hread, ih]
    rfl

/-- The last character read is the last of the current word unless it is a separator. -/
theorem getLast?_current_readAll (hc : isAlphanumeric c = true) (r : WordReader) (cs : List Char) :
    (r.readAll (cs ++ [c])).current.getLast? = some c := by
  induction cs generalizing r with
  | nil =>
    show (r.read c none).current.getLast? = some c
    cases hb : r.current.getLast?.any fun a => breaksBetween a c none with
    | true => rw [read_break hc hb]; rfl
    | false => rw [read_join hc hb, List.getLast?_concat]
  | cons d rest ih => exact ih _

/-- Letters without a change from lower to upper case, and without a small letter behind capitals,
all join the current word. -/
theorem readAll_letters (halpha : ∀ c ∈ a :: cs, isAlphabetic c = true)
    (hcase : (∀ c ∈ cs, isUppercase c = false) ∨ ∀ c ∈ a :: cs, isLowercase c = false)
    (hlast : r.current.getLast? = some a) : r.readAll cs = ⟨r.ended, r.current ++ cs⟩ := by
  induction cs generalizing r a with
  | nil => rw [List.append_nil]; rfl
  | cons c rest ih =>
    have ha : isAlphabetic a = true := halpha a List.mem_cons_self
    have hc : isAlphabetic c = true := halpha c (by simp)
    have hjoin : (r.current.getLast?.any fun a => breaksBetween a c rest.head?) = false := by
      rw [hlast, Option.any_some, breaksBetween, ha, hc]
      rcases hcase with hcase | hcase
      · simp [hcase c List.mem_cons_self]
      · have hnext : rest.head?.any isLowercase = false := by
          cases rest with
          | nil => rfl
          | cons e rest => exact hcase e (by simp)
        simp [hcase a List.mem_cons_self, hnext]
    have hword : isAlphanumeric c = true := by rw [isAlphanumeric, hc, Bool.true_or]
    rw [readAll, read_join hword hjoin, ih (a := c), List.append_assoc]
    · rfl
    · exact fun e he => halpha e (List.mem_cons_of_mem _ he)
    · exact hcase.imp (fun h e he => h e (List.mem_cons_of_mem _ he))
        (fun h e he => h e (List.mem_cons_of_mem _ he))
    · exact List.getLast?_concat ..

end WordReader

/-! ## Names in two parts -/

/-- The last character is a small letter. -/
def EndsInLower (s : String) : Prop := ∃ c ∈ s.toList.getLast?, isLowercase c = true

/-- The first character is a capital. -/
def BeginsWithUpper (s : String) : Prop := ∃ c ∈ s.toList.head?, isUppercase c = true

variable {a b : String} {c : Char}

/-- Where a word has ended, a reader is at a start behind the words so far. -/
theorem flush_readAll_start (name : String) :
    (WordReader.start.readAll name.toList).flush = WordReader.start.behind (words name) :=
  WordReader.eq_behind_start WordReader.current_flush

/-- A separator ends the words of what stands in front of it. -/
theorem words_append_separator (hc : isAlphanumeric c = false) (a b : String) :
    words (a ++ String.singleton c ++ b) = words a ++ words b := by
  have hlower : isLowercase c = false := Bool.eq_false_iff.mpr fun h => by
    rw [isAlphanumeric_of_isLowercase h] at hc
    cases hc
  have hlist : (a ++ String.singleton c ++ b).toList = a.toList ++ c :: b.toList := by simp
  rw [words, hlist, WordReader.readAll_append hlower, WordReader.readAll,
    WordReader.read_separator hc, flush_readAll_start, WordReader.readAll_behind,
    WordReader.flush_behind]
  rfl

/-- A capital behind a small letter begins a word. -/
theorem words_append_capital (ha : EndsInLower a) (hb : BeginsWithUpper b) :
    words (a ++ b) = words a ++ words b := by
  obtain ⟨x, hx, hxl⟩ := ha
  obtain ⟨y, hy, hyu⟩ := hb
  obtain ⟨as, has⟩ := List.getLast?_eq_some_iff.mp hx
  obtain ⟨bs, hbs⟩ := List.head?_eq_some_iff.mp hy
  have hlist : (a ++ b).toList = a.toList ++ y :: bs := by simp [hbs]
  have hread : (WordReader.start.readAll a.toList).read y bs.head? =
      (WordReader.start.read y bs.head?).behind (words a) := by
    rw [← WordReader.read_behind, ← flush_readAll_start]
    cases hw : isAlphanumeric y with
    | false =>
      rw [WordReader.read_separator hw, WordReader.read_separator hw,
        WordReader.flush_of_nil WordReader.current_flush]
    | true =>
      have hlast : (WordReader.start.readAll a.toList).current.getLast? = some x := by
        rw [has]
        exact WordReader.getLast?_current_readAll (isAlphanumeric_of_isLowercase hxl) _ _
      rw [WordReader.read_break hw (by simp [hlast, breaksBetween, hxl, hyu]),
        WordReader.read_join hw (by simp), WordReader.current_flush]
      rfl
  rw [words, hlist, WordReader.readAll_append (isLowercase_eq_false_of_isUppercase hyu),
    WordReader.readAll, hread, WordReader.readAll_behind, WordReader.flush_behind, words, words, hbs]
  rfl

/-! ## Names in several parts -/

theorem words_join_separator (hc : isAlphanumeric c = false) (ss : List String) :
    words (join (String.singleton c) ss) = ss.flatMap words := by
  induction ss with
  | nil => rfl
  | cons s rest ih =>
    cases rest with
    | nil => simp [join]
    | cons t rest =>
      rw [join, words_append_separator hc, ih, List.flatMap_cons (x := s)]
      exact List.cons_ne_nil t rest

theorem words_join_capital {ss : List String} (hend : ∀ s ∈ ss, EndsInLower s)
    (hbegin : ∀ s ∈ ss.tail, BeginsWithUpper s) : words (join "" ss) = ss.flatMap words := by
  induction ss with
  | nil => rfl
  | cons s rest ih =>
    cases rest with
    | nil => simp [join]
    | cons t rest =>
      have hrest : BeginsWithUpper (join "" (t :: rest)) := by
        obtain ⟨c, hc, hu⟩ := hbegin t List.mem_cons_self
        refine ⟨c, ?_, hu⟩
        cases rest with
        | nil => exact hc
        | cons u rest => simp [join, Option.mem_def.mp hc]
      rw [join, String.append_empty, words_append_capital (hend s List.mem_cons_self) hrest,
        ih (fun s hs => hend s (List.mem_cons_of_mem _ hs))
          (fun s hs => hbegin s (List.mem_of_mem_tail hs)), List.flatMap_cons (x := s)]
      exact List.cons_ne_nil t rest

/-! ## Words -/

/-- Letters without a change from lower to upper case, and without a small letter behind capitals,
are a single word. -/
theorem words_of_letters {x : Char} {cs ws : List Char}
    (halpha : ∀ c ∈ x :: cs, isAlphabetic c = true)
    (hcase : (∀ c ∈ cs, isUppercase c = false) ∨ ∀ c ∈ x :: cs, isLowercase c = false)
    (hlower : List.Forall₂ (fun d c => d ≠ 'Σ' ∧ lowerChar d = [c]) (x :: cs) ws) :
    words (String.ofList (x :: cs)) = [String.ofList ws] := by
  have hword : isAlphanumeric x = true := by
    rw [isAlphanumeric, halpha x List.mem_cons_self, Bool.true_or]
  have hread : WordReader.start.readAll (x :: cs) = ⟨[], x :: cs⟩ := by
    rw [WordReader.readAll, WordReader.read_join hword rfl,
      WordReader.readAll_letters (a := x) halpha hcase rfl]
    rfl
  rw [words, String.toList_ofList, hread, WordReader.flush_of_ne_nil (List.cons_ne_nil _ _),
    lowerChars, lowerAfter_of_forall₂ [] hlower]
  rfl

/-- A word of at least two small letters of ASCII. -/
structure IsPlainWord (w : String) : Prop where
  two_le_length : 2 ≤ w.length
  isLower : ∀ c ∈ w.toList, c.isLower = true

instance (w : String) : Decidable (IsPlainWord w) :=
  decidable_of_iff (2 ≤ w.length ∧ w.toList.all Char.isLower = true)
    ⟨fun h => ⟨h.1, List.all_eq_true.mp h.2⟩,
      fun h => ⟨h.two_le_length, List.all_eq_true.mpr h.isLower⟩⟩

/-- A word with a capital at its start. -/
def capitalized (w : String) : String :=
  match w.toList with
  | [] => ""
  | c :: rest => String.ofList (c.toUpper :: rest)

/-- A word in capitals. -/
def capitals (w : String) : String := String.ofList (w.toList.map Char.toUpper)

theorem capitalized_ofList (c : Char) (cs : List Char) :
    capitalized (String.ofList (c :: cs)) = String.ofList (c.toUpper :: cs) := by
  simp [capitalized]

theorem capitals_ofList (cs : List Char) :
    capitals (String.ofList cs) = String.ofList (cs.map Char.toUpper) := by
  simp [capitals]

namespace IsPlainWord

variable {w : String} (h : IsPlainWord w)

include h

theorem exists_eq : ∃ x y cs, w = String.ofList (x :: y :: cs) := by
  have hlength := h.two_le_length
  rw [← String.length_toList] at hlength
  match hw : w.toList with
  | [] | [_] => simp [hw] at hlength
  | x :: y :: cs => exact ⟨x, y, cs, by rw [← hw, String.ofList_toList]⟩

theorem isAlphabetic (hc : c ∈ w.toList) : isAlphabetic c = true :=
  isAlphabetic_of_isLowercase (ascii_lower (h.isLower c hc)).1

theorem isUppercase_eq_false (hc : c ∈ w.toList) : isUppercase c = false :=
  isUppercase_eq_false_of_isLowercase (ascii_lower (h.isLower c hc)).1

/-- Small letters are their own lower case. -/
theorem lower_eq {cs : List Char} (hcs : ∀ c ∈ cs, c ∈ w.toList) :
    List.Forall₂ (fun d c => d ≠ 'Σ' ∧ lowerChar d = [c]) cs cs :=
  List.forall₂_same.mpr fun c hc => (ascii_lower (h.isLower c (hcs c hc))).2

theorem words_eq : words w = [w] := by
  obtain ⟨x, y, cs, rfl⟩ := h.exists_eq
  refine words_of_letters ?_ (.inl ?_) (h.lower_eq ?_)
  · exact fun c hc => h.isAlphabetic (by simpa using hc)
  · exact fun c hc => h.isUppercase_eq_false (by simp_all)
  · exact fun c hc => by simpa using hc

theorem words_capitalized : words (capitalized w) = [w] := by
  obtain ⟨x, y, cs, rfl⟩ := h.exists_eq
  have hx := ascii_upper (h.isLower x (by simp))
  rw [capitalized_ofList]
  refine words_of_letters ?_ (.inl ?_) (.cons hx.2.2 (h.lower_eq ?_))
  · refine List.forall_mem_cons.mpr ⟨hx.2.1, fun c hc => h.isAlphabetic ?_⟩
    rw [String.toList_ofList]
    exact List.mem_cons_of_mem x hc
  · exact fun c hc => h.isUppercase_eq_false (by simp_all)
  · exact fun c hc => by simp_all

theorem words_capitals : words (capitals w) = [w] := by
  obtain ⟨x, y, cs, rfl⟩ := h.exists_eq
  have hupper : ∀ c ∈ (x :: y :: cs).map Char.toUpper,
      ∃ d : Char, d.isLower = true ∧ c = d.toUpper := by
    intro c hc
    obtain ⟨d, hd, rfl⟩ := List.mem_map.mp hc
    exact ⟨d, h.isLower d (by simpa using hd), rfl⟩
  rw [capitals_ofList]
  refine words_of_letters ?_ (.inr ?_) ?_
  · intro c hc
    obtain ⟨d, hd, rfl⟩ := hupper c hc
    exact (ascii_upper hd).2.1
  · intro c hc
    obtain ⟨d, hd, rfl⟩ := hupper c hc
    exact isLowercase_eq_false_of_isUppercase (ascii_upper hd).1
  · refine List.forall₂_map_left_iff (l := x :: y :: cs).mpr (List.forall₂_same.mpr fun c hc => ?_)
    exact (ascii_upper (h.isLower c (by simpa using hc))).2.2

theorem endsInLower : EndsInLower w := by
  obtain ⟨x, y, cs, rfl⟩ := h.exists_eq
  refine ⟨(y :: cs).getLast (List.cons_ne_nil y cs), by simp [List.getLast?_eq_some_getLast], ?_⟩
  exact (ascii_lower (h.isLower _ (by simp))).1

theorem endsInLower_capitalized : EndsInLower (capitalized w) := by
  obtain ⟨x, y, cs, rfl⟩ := h.exists_eq
  rw [EndsInLower, capitalized_ofList, String.toList_ofList]
  refine ⟨(y :: cs).getLast (List.cons_ne_nil y cs), by simp [List.getLast?_eq_some_getLast], ?_⟩
  exact (ascii_lower (h.isLower _ (by simp))).1

theorem beginsWithUpper_capitalized : BeginsWithUpper (capitalized w) := by
  obtain ⟨x, y, cs, rfl⟩ := h.exists_eq
  rw [BeginsWithUpper, capitalized_ofList, String.toList_ofList]
  exact ⟨x.toUpper, rfl, (ascii_upper (h.isLower x (by simp))).1⟩

end IsPlainWord

/-! ## Spellings -/

/-- The usual ways to write several words as one name. -/
inductive NamingStyle
  | pascal
  | camel
  | snake
  | kebab
  | screamingSnake
  deriving DecidableEq, Repr

/-- The name that is made of some words. -/
def NamingStyle.spell : NamingStyle → List String → String
  | pascal, ws => join "" (ws.map capitalized)
  | camel, ws => join "" (ws.take 1 ++ (ws.drop 1).map capitalized)
  | snake, ws => join "_" ws
  | kebab, ws => join "-" ws
  | screamingSnake, ws => join "_" (ws.map capitals)

example : NamingStyle.camel.spell ["order", "service", "impl"] = "orderServiceImpl" := by
  decide +kernel

theorem flatMap_words {f : String → String} {ws : List String} (h : ∀ w ∈ ws, words (f w) = [w]) :
    (ws.map f).flatMap words = ws := by
  rw [List.flatMap_map, List.flatMap_congr h, List.flatMap_singleton']

theorem words_spell (style : NamingStyle) {ws : List String} (h : ∀ w ∈ ws, IsPlainWord w) :
    words (style.spell ws) = ws := by
  have hplain : ws.flatMap words = ws := by
    simpa using flatMap_words (f := id) fun w hw => (h w hw).words_eq
  cases style with
  | pascal =>
    refine (words_join_capital ?_ ?_).trans (flatMap_words fun w hw => (h w hw).words_capitalized)
    · exact List.forall_mem_map.mpr fun w hw => (h w hw).endsInLower_capitalized
    · exact fun s hs => List.forall_mem_map.mpr
        (fun w hw => (h w hw).beginsWithUpper_capitalized) s (List.mem_of_mem_tail hs)
  | camel =>
    cases ws with
    | nil => rfl
    | cons w ws =>
      have hw := h w List.mem_cons_self
      have hws : ∀ v ∈ ws, IsPlainWord v := fun v hv => h v (List.mem_cons_of_mem w hv)
      refine (words_join_capital ?_ ?_).trans ?_
      · refine List.forall_mem_cons.mpr ⟨hw.endsInLower, ?_⟩
        exact List.forall_mem_map.mpr fun v hv => (hws v hv).endsInLower_capitalized
      · exact List.forall_mem_map.mpr fun v hv => (hws v hv).beginsWithUpper_capitalized
      · show words w ++ (ws.map capitalized).flatMap words = w :: ws
        rw [hw.words_eq, flatMap_words fun v hv => (hws v hv).words_capitalized]
        rfl
  | snake => exact (words_join_separator (c := '_') (by decide +kernel) ws).trans hplain
  | kebab => exact (words_join_separator (c := '-') (by decide +kernel) ws).trans hplain
  | screamingSnake =>
    exact (words_join_separator (c := '_') (by decide +kernel) _).trans
      (flatMap_words fun w hw => (h w hw).words_capitals)

/-- Reading the words of a name undoes its spelling: a separator, or a capital behind a small
letter, takes a name apart into two names with words of their own, and so a list of plain words is
read off each of its spellings. -/
theorem words_undo_spelling :
    (∀ a b c, isAlphanumeric c = false →
      words (a ++ String.singleton c ++ b) = words a ++ words b) ∧
    (∀ a b, EndsInLower a → BeginsWithUpper b → words (a ++ b) = words a ++ words b) ∧
    ∀ (style : NamingStyle) (ws : List String), (∀ w ∈ ws, IsPlainWord w) →
      words (style.spell ws) = ws :=
  ⟨fun a b _ hc => words_append_separator hc a b, fun _ _ ha hb => words_append_capital ha hb,
    fun style _ h => words_spell style h⟩

theorem words_undo_spelling_of_mixed_names :
    words ("HTTP2Server" ++ String.singleton '-' ++ "X") = ["http", "2", "server"] ++ ["x"] ∧
    words ("xmlÄß" ++ "Öl") = ["xml", "äß"] ++ ["öl"] ∧
    (∀ w ∈ ["order", "service", "impl"], IsPlainWord w) ∧
    words "ORDER_SERVICE_IMPL" = ["order", "service", "impl"] := by
  have hplain : ∀ w ∈ ["order", "service", "impl"], IsPlainWord w := by decide +kernel
  have hspell : NamingStyle.screamingSnake.spell ["order", "service", "impl"] =
      "ORDER_SERVICE_IMPL" := by decide +kernel
  refine ⟨?_, ?_, hplain, ?_⟩
  · rw [words_undo_spelling.1 "HTTP2Server" "X" '-' (by decide +kernel)]
    decide +kernel
  · have hend : EndsInLower "xmlÄß" := ⟨'ß', by decide +kernel, by decide +kernel⟩
    have hbegin : BeginsWithUpper "Öl" := ⟨'Ö', by decide +kernel, by decide +kernel⟩
    rw [words_undo_spelling.2.1 "xmlÄß" "Öl" hend hbegin]
    decide +kernel
  · rw [← hspell]
    exact words_undo_spelling.2.2 .screamingSnake _ hplain

end TraceRecovery.Name
