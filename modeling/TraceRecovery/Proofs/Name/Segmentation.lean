import Mathlib.Data.List.SplitBy
import TraceRecovery.Name.Words

/-!
# The segments of a name

A reader of names keeps a word under construction and looks at its last character and at one that
follows. What it finds can be said without a reader (`Name.IsSegmentation`): which letters and digits
belong together depends on adjacent characters only (`Name.EndsBetween`).

* `Name.IsSegmentation.split`, `Name.IsSegmentation.join`: the segments of a text that is longer by
  one character;
* `Name.Reads.read`, `Name.Reads.readAll`: a reader keeps to these segments with each character, and
  so with all of them;
* `Name.IsSegmentation.eq_splitBy`: there is no other segmentation.
-/

namespace TraceRecovery.Name

open Text

/-- Whether a word ends between the adjacent characters `a` and `b`, given what follows `b`: at a
change from lower to upper case, at a change between letters and other characters, and between two
capitals if a small letter follows. -/
def EndsBetween (a b : Char) (next? : Option Char) : Prop :=
  (isLowercase a = true ∧ isUppercase b = true) ∨
    ¬ (isAlphabetic a = true ↔ isAlphabetic b = true) ∨
    (isUppercase a = true ∧ isUppercase b = true ∧ ∃ c ∈ next?, isLowercase c = true)

theorem breaksBetween_iff {a b : Char} {next? : Option Char} :
    breaksBetween a b next? = true ↔ EndsBetween a b next? := by
  have hmixed : (isAlphabetic a != isAlphabetic b) = true ↔
      ¬ (isAlphabetic a = true ↔ isAlphabetic b = true) := by
    cases isAlphabetic a <;> cases isAlphabetic b <;> decide
  have hnext : next?.any isLowercase = true ↔ ∃ c ∈ next?, isLowercase c = true := by
    cases next? <;> simp
  simp only [breaksBetween, EndsBetween, Bool.or_eq_true, Bool.and_eq_true, hmixed, hnext, and_assoc,
    or_assoc]

/-- Whether there is a letter or digit at a position. -/
def isWordChar (cs : List Char) (i : ℕ) : Bool := cs[i]?.any isAlphanumeric

/-- The positions of the letters and digits among the first `n` characters, from left to right. -/
def positions (cs : List Char) (n : ℕ) : List ℕ := (List.range n).filter (isWordChar cs)

/-- Whether two positions are in the same segment. -/
def Together (ps : List (List ℕ)) (i j : ℕ) : Prop := ∃ p ∈ ps, i ∈ p ∧ j ∈ p

/-- Some lists of positions are the segments of the first `n` characters of a text. -/
structure IsSegmentation (cs : List Char) (n : ℕ) (ps : List (List ℕ)) : Prop where
  /-- No segment is empty. -/
  nonempty : ∀ p ∈ ps, p ≠ []
  /-- Together they have all letters and digits, each once and in their order. -/
  flatten_eq : ps.flatten = positions cs n
  /-- What another character separates is in different segments. -/
  separated : ∀ i k j, i < k → k < j → isWordChar cs k = false → ¬ Together ps i j
  /-- Adjacent letters and digits are in different segments exactly where a word ends. -/
  adjacent : ∀ i a b, i + 1 < n → cs[i]? = some a → cs[i + 1]? = some b →
    isAlphanumeric a = true → isAlphanumeric b = true →
    (¬ Together ps i (i + 1) ↔ EndsBetween a b cs[i + 2]?)

/-- The characters at some positions. -/
def textAt (cs : List Char) (p : List ℕ) : List Char := p.filterMap (cs[·]?)

/-- The characters at some positions, in lower case. -/
def wordAt (cs : List Char) (p : List ℕ) : String := String.ofList (lowerChars (textAt cs p))

variable {cs : List Char} {n m i j k : ℕ} {c : Char} {ps : List (List ℕ)} {r : WordReader}

/-! ## Longer texts -/

theorem isWordChar_of_getElem? (h : cs[n]? = some c) : isWordChar cs n = isAlphanumeric c := by
  simp [isWordChar, h]

theorem exists_of_isWordChar (h : isWordChar cs i = true) :
    ∃ a, cs[i]? = some a ∧ isAlphanumeric a = true := (Option.any_eq_true ..).mp h

theorem mem_positions : i ∈ positions cs n ↔ i < n ∧ isWordChar cs i = true := by
  simp [positions]

theorem positions_succ (cs : List Char) (n : ℕ) :
    positions cs (n + 1) = if isWordChar cs n then positions cs n ++ [n] else positions cs n := by
  simp only [positions, List.range_succ, List.filter_append, List.filter_singleton]
  cases isWordChar cs n <;> simp

namespace IsSegmentation

variable (h : IsSegmentation cs n ps)

include h

theorem mem_iff : (∃ p ∈ ps, i ∈ p) ↔ i < n ∧ isWordChar cs i = true := by
  rw [← mem_positions, ← h.flatten_eq, List.mem_flatten]

theorem lt_of_together (hij : Together ps i j) : i < n ∧ j < n := by
  obtain ⟨p, hp, hi, hj⟩ := hij
  exact ⟨(h.mem_iff.mp ⟨p, hp, hi⟩).1, (h.mem_iff.mp ⟨p, hp, hj⟩).1⟩

/-- A separator adds nothing to any segment. -/
theorem skip (hn : isWordChar cs n = false) : IsSegmentation cs (n + 1) ps where
  nonempty := h.nonempty
  flatten_eq := by rw [positions_succ, hn, h.flatten_eq]; rfl
  separated := h.separated
  adjacent i a b hi ha hb hwa hwb := by
    refine h.adjacent i a b (Nat.lt_of_le_of_ne (Nat.lt_succ_iff.mp hi) ?_) ha hb hwa hwb
    rintro rfl
    rw [isWordChar_of_getElem? hb, hwb] at hn
    cases hn

/-- A letter or digit is a new segment where a word ends in front of it. -/
theorem split (hc : cs[n]? = some c) (hw : isAlphanumeric c = true)
    (hend : ∀ i a, i + 1 = n → cs[i]? = some a → isAlphanumeric a = true →
      EndsBetween a c cs[n + 1]?) :
    IsSegmentation cs (n + 1) (ps ++ [[n]]) := by
  have htogether : ∀ i j, Together (ps ++ [[n]]) i j ↔ Together ps i j ∨ (i = n ∧ j = n) := by
    simp [Together, or_and_right, exists_or]
  refine ⟨?_, ?_, fun i k j hik hkj hk => ?_, fun i a b hi ha hb hwa hwb => ?_⟩
  · intro p hp
    rcases List.mem_append.mp hp with hp | hp
    · exact h.nonempty p hp
    · rw [List.mem_singleton.mp hp]
      exact List.cons_ne_nil _ _
  · rw [positions_succ, isWordChar_of_getElem? hc, hw, List.flatten_append, h.flatten_eq]
    rfl
  · rw [htogether]
    rintro (hij | ⟨rfl, rfl⟩)
    · exact h.separated i k j hik hkj hk hij
    · omega
  · rw [htogether]
    rcases (Nat.lt_succ_iff.mp hi).lt_or_eq with hlt | rfl
    · rw [← h.adjacent i a b hlt ha hb hwa hwb]
      refine not_congr (or_iff_left ?_)
      omega
    · obtain rfl := Option.some.inj (hb.symm.trans hc)
      refine iff_of_true ?_ (hend i a rfl ha hwa)
      rintro (hij | ⟨hij, -⟩)
      · exact absurd (h.lt_of_together hij).2 (Nat.lt_irrefl _)
      · omega

end IsSegmentation

/-- A letter or digit joins the last segment where that reaches to it and no word ends. -/
theorem IsSegmentation.join (h : IsSegmentation cs n (ps ++ [List.range' m (n - m)])) (hm : m < n)
    (hc : cs[n]? = some c) (hw : isAlphanumeric c = true)
    (hjoin : ∀ a, cs[n - 1]? = some a → ¬ EndsBetween a c cs[n + 1]?) :
    IsSegmentation cs (n + 1) (ps ++ [List.range' m (n + 1 - m)]) := by
  have hrange : List.range' m (n + 1 - m) = List.range' m (n - m) ++ [n] := by
    rw [show n + 1 - m = (n - m) + 1 by omega, List.range'_concat]
    congr 2
    omega
  have hlast : ∀ k, m ≤ k → k < n → k ∈ List.range' m (n - m) := fun k hk hkn => by
    rw [List.mem_range'_1]
    omega
  have htogether : ∀ i j, Together (ps ++ [List.range' m (n + 1 - m)]) i j ↔
      Together (ps ++ [List.range' m (n - m)]) i j ∨
        (m ≤ i ∧ i ≤ n ∧ j = n) ∨ (i = n ∧ m ≤ j ∧ j ≤ n) := by
    intro i j
    simp only [Together, List.mem_append, List.mem_singleton, or_and_right, exists_or,
      exists_eq_left, List.mem_range'_1, or_assoc]
    refine or_congr_right ?_
    omega
  refine ⟨?_, ?_, fun i k j hik hkj hk => ?_, fun i a b hi ha hb hwa hwb => ?_⟩
  · intro p hp
    rcases List.mem_append.mp hp with hp | hp
    · exact h.nonempty p (List.mem_append_left _ hp)
    · rw [List.mem_singleton.mp hp, hrange]
      exact List.append_ne_nil_of_right_ne_nil _ (List.cons_ne_nil _ _)
  · rw [positions_succ, isWordChar_of_getElem? hc, hw, if_pos rfl, ← h.flatten_eq, hrange]
    simp
  · rw [htogether]
    rintro (hij | ⟨hmi, -, rfl⟩ | ⟨rfl, -, hj⟩)
    · exact h.separated i k j hik hkj hk hij
    · have hmem := h.mem_iff.mp ⟨_, List.mem_append_right _ List.mem_cons_self,
        hlast k (by omega) hkj⟩
      rw [hk] at hmem
      cases hmem.2
    · omega
  · rw [htogether]
    rcases (Nat.lt_succ_iff.mp hi).lt_or_eq with hlt | rfl
    · rw [← h.adjacent i a b hlt ha hb hwa hwb]
      refine not_congr (or_iff_left ?_)
      omega
    · obtain rfl := Option.some.inj (hb.symm.trans hc)
      refine iff_of_false ?_ (hjoin a ha)
      exact not_not_intro (.inr (.inl ⟨by omega, by omega, rfl⟩))

/-! ## Readers -/

/-- The segments that have ended, and the positions from `m` on as the last one unless there are
none. -/
def withCurrent (ps : List (List ℕ)) (m n : ℕ) : List (List ℕ) :=
  if m = n then ps else ps ++ [List.range' m (n - m)]

/-- A reader has read the first `n` characters: the words that have ended are those at `ps`, and the
current one has the characters from position `m` on. -/
structure Reads (cs : List Char) (n : ℕ) (r : WordReader) (ps : List (List ℕ)) (m : ℕ) : Prop where
  le : m ≤ n
  ended : r.ended = ps.map (wordAt cs)
  current : r.current = textAt cs (List.range' m (n - m))
  segments : IsSegmentation cs n (withCurrent ps m n)
  /-- There is no current word only behind a separator or where nothing has been read. -/
  fresh : m = n → ∀ i, i + 1 = n → isWordChar cs i = false

theorem textAt_range'_succ (hm : m ≤ n) (hc : cs[n]? = some c) :
    textAt cs (List.range' m (n + 1 - m)) = textAt cs (List.range' m (n - m)) ++ [c] := by
  rw [show n + 1 - m = (n - m) + 1 by omega, List.range'_concat, Nat.one_mul,
    show m + (n - m) = n by omega]
  simp [textAt, hc]

theorem getLast?_textAt_range' (hm : m < n) (hn : n ≤ cs.length) :
    (textAt cs (List.range' m (n - m))).getLast? = cs[n - 1]? := by
  have hc : cs[n - 1]? = some cs[n - 1] := List.getElem?_eq_getElem (by omega)
  have h := textAt_range'_succ (m := m) (n := n - 1) (by omega) hc
  rw [show n - 1 + 1 = n by omega] at h
  rw [h, hc, List.getLast?_append]
  rfl

namespace Reads

theorem start (cs : List Char) : Reads cs 0 .start [] 0 where
  le := Nat.le_refl 0
  ended := rfl
  current := rfl
  segments := ⟨by simp [withCurrent], rfl, by simp [withCurrent, Together], by omega⟩
  fresh := by omega

variable (h : Reads cs n r ps m)

include h

/-- The last word ends where the reader ends it. -/
theorem ended_flush (hn : n ≤ cs.length) : r.flush.ended = (withCurrent ps m n).map (wordAt cs) := by
  rcases h.le.eq_or_lt with rfl | hm
  · have hcurrent : r.current = [] := by simpa [textAt] using h.current
    rw [WordReader.flush_of_nil hcurrent, h.ended, withCurrent, if_pos rfl]
  · have hcurrent : r.current ≠ [] := fun hnil => by
      have hlast := getLast?_textAt_range' hm hn
      rw [← h.current, hnil, List.getElem?_eq_getElem (by omega)] at hlast
      cases hlast
    rw [WordReader.flush_of_ne_nil hcurrent, withCurrent, if_neg hm.ne, List.map_append, h.ended,
      h.current]
    rfl

theorem getLast?_current (hm : m < n) (hn : n ≤ cs.length) : r.current.getLast? = cs[n - 1]? := by
  rw [h.current, getLast?_textAt_range' hm hn]

/-- A letter or digit in front of the next character is in the current word. -/
theorem lt_of_previous {a : Char} (hi : i + 1 = n) (ha : cs[i]? = some a)
    (hwa : isAlphanumeric a = true) : m < n := by
  refine h.le.lt_of_ne fun hm => ?_
  have hfresh := h.fresh hm i hi
  rw [isWordChar_of_getElem? ha, hwa] at hfresh
  cases hfresh

theorem read_separator (hc : cs[n]? = some c) (hw : isAlphanumeric c = false) (next? : Option Char) :
    Reads cs (n + 1) (r.read c next?) (withCurrent ps m n) (n + 1) := by
  have hn : n < cs.length := (List.getElem?_eq_some_iff.mp hc).1
  have hword : isWordChar cs n = false := (isWordChar_of_getElem? hc).trans hw
  rw [WordReader.read_separator hw]
  refine ⟨Nat.le_refl _, h.ended_flush hn.le, ?_, ?_, fun _ i hi => ?_⟩
  · simp [textAt]
  · rw [withCurrent, if_pos rfl]
    exact h.segments.skip hword
  · obtain rfl := Nat.succ.inj hi
    exact hword

theorem read_break (hc : cs[n]? = some c) (hw : isAlphanumeric c = true)
    (hb : (r.current.getLast?.any fun a => breaksBetween a c cs[n + 1]?) = true) :
    Reads cs (n + 1) (r.read c cs[n + 1]?) (withCurrent ps m n) n := by
  have hn : n < cs.length := (List.getElem?_eq_some_iff.mp hc).1
  rw [WordReader.read_break hw hb]
  refine ⟨Nat.le_succ n, h.ended_flush hn.le, ?_, ?_, by omega⟩
  · simp [textAt, hc]
  · rw [withCurrent, if_neg (by omega), show n + 1 - n = 1 by omega]
    refine h.segments.split hc hw fun i a hi ha hwa => breaksBetween_iff.mp ?_
    rwa [h.getLast?_current (h.lt_of_previous hi ha hwa) hn.le, ← hi, Nat.add_sub_cancel, ha,
      Option.any_some, hi] at hb

theorem read_join (hc : cs[n]? = some c) (hw : isAlphanumeric c = true)
    (hb : (r.current.getLast?.any fun a => breaksBetween a c cs[n + 1]?) = false) :
    Reads cs (n + 1) (r.read c cs[n + 1]?) ps m := by
  have hn : n < cs.length := (List.getElem?_eq_some_iff.mp hc).1
  have hle := h.le
  have hsegments := h.segments
  rw [WordReader.read_join hw hb]
  refine ⟨hle.trans (Nat.le_succ n), h.ended, ?_, ?_, by omega⟩
  · show r.current ++ [c] = _
    rw [textAt_range'_succ hle hc, h.current]
  rw [withCurrent, if_neg (by omega)]
  rcases hle.eq_or_lt with rfl | hm
  · -- There is no current word to join.
    rw [withCurrent, if_pos rfl] at hsegments
    rw [show m + 1 - m = 1 by omega]
    exact hsegments.split hc hw fun i a hi ha hwa =>
      absurd (h.lt_of_previous hi ha hwa) (Nat.lt_irrefl m)
  · rw [withCurrent, if_neg hm.ne] at hsegments
    refine hsegments.join hm hc hw fun a ha hend => ?_
    rw [h.getLast?_current hm hn.le, ha] at hb
    exact Bool.eq_false_iff.mp hb (breaksBetween_iff.mpr hend)

/-- A reader keeps to the segments of a text with each character. -/
theorem read (hc : cs[n]? = some c) : ∃ ps' m', Reads cs (n + 1) (r.read c cs[n + 1]?) ps' m' := by
  cases hw : isAlphanumeric c with
  | false => exact ⟨_, _, h.read_separator hc hw _⟩
  | true =>
    cases hb : r.current.getLast?.any fun a => breaksBetween a c cs[n + 1]? with
    | true => exact ⟨_, _, h.read_break hc hw hb⟩
    | false => exact ⟨_, _, h.read_join hc hw hb⟩

/-- So it does with all characters that are left. -/
theorem readAll (hn : n ≤ cs.length) :
    ∃ ps' m', Reads cs cs.length (r.readAll (cs.drop n)) ps' m' := by
  generalize hrest : cs.drop n = rest
  induction rest generalizing n r ps m with
  | nil =>
    have hlength : cs.length ≤ n := List.drop_eq_nil_iff.mp hrest
    obtain rfl : n = cs.length := Nat.le_antisymm hn hlength
    exact ⟨ps, m, h⟩
  | cons c rest ih =>
    have hget : ∀ k, cs[n + k]? = (c :: rest)[k]? := fun k => by
      rw [← hrest, List.getElem?_drop]
    have hc : cs[n]? = some c := hget 0
    have hlt : n < cs.length := (List.getElem?_eq_some_iff.mp hc).1
    obtain ⟨ps', m', hread⟩ := h.read hc
    rw [WordReader.readAll, List.head?_eq_getElem?, show rest[0]? = cs[n + 1]? from (hget 1).symm]
    refine ih hread hlt ?_
    rw [← List.drop_drop, hrest]
    rfl

end Reads

/-! ## There is one segmentation -/

/-- Whether the second of two positions follows the first one and no word ends between them. -/
def follows (cs : List Char) (i j : ℕ) : Bool :=
  j == i + 1 && !cs[i]?.any fun a => cs[j]?.any fun b => breaksBetween a b cs[j + 1]?

theorem sorted_positions (cs : List Char) (n : ℕ) : (positions cs n).Pairwise (· < ·) :=
  List.pairwise_lt_range.filter _

/-- Between two letters or digits that are next to each other in a list of all there are only
separators. -/
theorem of_positions_eq {l l' : List ℕ} (h : positions cs n = l ++ i :: j :: l') :
    i < j ∧ ∀ k, i < k → k < j → isWordChar cs k = false := by
  have hsorted := sorted_positions cs n
  rw [h, List.pairwise_append, List.pairwise_cons, List.pairwise_cons] at hsorted
  obtain ⟨-, ⟨hi, hj, -⟩, hl⟩ := hsorted
  refine ⟨hi j List.mem_cons_self, fun k hik hkj => Bool.eq_false_iff.mpr fun hk => ?_⟩
  have hjn : j < n := (mem_positions.mp (show j ∈ positions cs n by simp [h])).1
  have hmem : k ∈ l ++ i :: j :: l' := h ▸ mem_positions.mpr ⟨hkj.trans hjn, hk⟩
  rcases List.mem_append.mp hmem with hmem | hmem
  · exact absurd (hl k hmem i List.mem_cons_self) (by omega)
  · rcases List.mem_cons.mp hmem with rfl | hmem
    · omega
    · rcases List.mem_cons.mp hmem with rfl | hmem
      · omega
      · exact absurd (hj k hmem) (by omega)

namespace IsSegmentation

variable (h : IsSegmentation cs n ps)

include h

theorem follows_iff {l l' : List ℕ} (heq : positions cs n = l ++ i :: j :: l') :
    follows cs i j = true ↔ Together ps i j := by
  obtain ⟨hij, hbetween⟩ := of_positions_eq heq
  obtain ⟨hin, hi⟩ := mem_positions.mp (show i ∈ positions cs n by simp [heq])
  obtain ⟨hjn, hj⟩ := mem_positions.mp (show j ∈ positions cs n by simp [heq])
  obtain ⟨a, ha, hwa⟩ := exists_of_isWordChar hi
  obtain ⟨b, hb, hwb⟩ := exists_of_isWordChar hj
  by_cases hsucc : j = i + 1
  · subst hsucc
    have hfollows : follows cs i (i + 1) = !breaksBetween a b cs[i + 1 + 1]? := by
      simp [follows, ha, hb]
    rw [hfollows, Bool.not_eq_true', ← Bool.not_eq_true, breaksBetween_iff,
      ← h.adjacent i a b hjn ha hb hwa hwb, not_not]
  · have hgap := h.separated i (i + 1) j (Nat.lt_succ_self i) (by omega)
      (hbetween (i + 1) (Nat.lt_succ_self i) (by omega))
    exact iff_of_false (by simp [follows, hsucc]) hgap

/-- The segments are the longest stretches of positions that follow each other. -/
theorem eq_splitBy : (positions cs n).splitBy (follows cs) = ps := by
  refine List.splitBy_eq_iff.mpr
    ⟨h.flatten_eq.symm, fun hnil => h.nonempty _ hnil rfl, fun p hp => ?_, ?_⟩
  · rw [List.isChain_iff_forall_rel_of_append_cons_cons]
    intro i j l l' heq
    obtain ⟨before, after, hps⟩ := List.append_of_mem hp
    have hpositions : positions cs n = (before.flatten ++ l) ++ i :: j :: (l' ++ after.flatten) := by
      simp [← h.flatten_eq, hps, heq]
    exact (h.follows_iff hpositions).mpr ⟨p, hp, by simp [heq], by simp [heq]⟩
  · rw [List.isChain_iff_forall_rel_of_append_cons_cons]
    intro p q before after heq
    have hp : p ≠ [] := h.nonempty p (by simp [heq])
    have hq : q ≠ [] := h.nonempty q (by simp [heq])
    have hlast := List.getLast_mem hp
    have hhead := List.head_mem hq
    have hpositions : positions cs n = (before.flatten ++ p.dropLast) ++
        p.getLast hp :: q.head hq :: (q.tail ++ after.flatten) := by
      have hp' := List.dropLast_append_getLast hp
      have hq' := List.cons_head_tail hq
      calc positions cs n = before.flatten ++ (p ++ (q ++ after.flatten)) := by
            simp [← h.flatten_eq, heq]
        _ = before.flatten ++ ((p.dropLast ++ [p.getLast hp]) ++
              ((q.head hq :: q.tail) ++ after.flatten)) := by rw [hp', hq']
        _ = _ := by simp only [List.append_assoc, List.cons_append, List.nil_append]
    refine ⟨hp, hq, Bool.eq_false_iff.mpr fun hfollows => ?_⟩
    -- No segment has both positions: each one ends before the next one begins.
    obtain ⟨s, hs, hi, hj⟩ := (h.follows_iff hpositions).mp hfollows
    have hsorted := (List.pairwise_flatten.mp (h.flatten_eq ▸ sorted_positions cs n)).2
    rw [heq, List.pairwise_append, List.pairwise_cons, List.pairwise_cons] at hsorted
    obtain ⟨-, ⟨hpq, hqafter, -⟩, hbefore⟩ := hsorted
    rw [heq] at hs
    rcases List.mem_append.mp hs with hs | hs
    · exact absurd (hbefore s hs p List.mem_cons_self _ hi _ hlast) (Nat.lt_irrefl _)
    · rcases List.mem_cons.mp hs with rfl | hs
      · exact absurd (hpq q List.mem_cons_self _ hj _ hhead) (Nat.lt_irrefl _)
      · exact absurd (hpq s hs _ hlast _ hi) (Nat.lt_irrefl _)

end IsSegmentation

/-! ## The words of a name -/

theorem textAt_range (cs : List Char) (n : ℕ) : textAt cs (List.range n) = cs.take n := by
  induction n with
  | zero => rfl
  | succ n ih =>
    rw [textAt] at ih
    rw [textAt, List.range_succ, List.filterMap_append, ih, List.take_add_one]
    cases h : cs[n]? <;> simp [h]

theorem textAt_positions (cs : List Char) :
    textAt cs (positions cs cs.length) = cs.filter isAlphanumeric := by
  calc textAt cs (positions cs cs.length)
      = (List.range cs.length).filterMap fun i => if isWordChar cs i then cs[i]? else none := by
        rw [textAt, positions, List.filterMap_filter]
    _ = (List.range cs.length).filterMap fun i => cs[i]?.filter isAlphanumeric := by
        refine List.filterMap_congr fun i _ => ?_
        rw [isWordChar]
        cases cs[i]? <;> simp [Option.filter]
    _ = (textAt cs (List.range cs.length)).filter isAlphanumeric := by
        rw [textAt, List.filter_filterMap]
    _ = cs.filter isAlphanumeric := by rw [textAt_range, List.take_length]

/-- Every name has exactly one segmentation, whose segments have its letters and digits in their
order, and its words are these segments in lower case. -/
theorem words_follow_segmentation (name : String) :
    ∃ ps, (∀ qs, IsSegmentation name.toList name.toList.length qs ↔ qs = ps) ∧
      (ps.map (textAt name.toList)).flatten = name.toList.filter isAlphanumeric ∧
      words name = ps.map (wordAt name.toList) := by
  obtain ⟨ps, m, h⟩ := (Reads.start name.toList).readAll (Nat.zero_le _)
  have hsegments := h.segments
  refine ⟨withCurrent ps m name.toList.length, fun qs => ⟨fun hqs => ?_, ?_⟩, ?_, ?_⟩
  · exact hqs.eq_splitBy.symm.trans hsegments.eq_splitBy
  · rintro rfl
    exact hsegments
  · rw [← textAt_positions, ← hsegments.flatten_eq, textAt, List.filterMap_flatten]
    rfl
  · exact h.ended_flush le_rfl

end TraceRecovery.Name
