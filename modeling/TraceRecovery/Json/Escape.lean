/-!
# Strings in JSON notation

`escaped` writes the content of a string, `readBody` reads it up to the closing quote.
`readBody_escaped` says that reading gives back what was written, whatever the text holds and
whatever follows it.
-/

namespace TraceRecovery.Json

/-- The digit of a hexadecimal numeral. -/
def hexDigit (n : Nat) : Char := if n < 10 then Char.ofNat (48 + n) else Char.ofNat (87 + n)

/-- The value of a hexadecimal digit in either case. -/
def hexValue? (c : Char) : Option Nat :=
  let n := c.toNat
  if 48 ≤ n ∧ n ≤ 57 then some (n - 48)
  else if 97 ≤ n ∧ n ≤ 102 then some (n - 87)
  else if 65 ≤ n ∧ n ≤ 70 then some (n - 55)
  else none

/-- The letter that stands behind a backslash for a character that has one. -/
def escapeLetter? : Char → Option Char
  | '"' => some '"'
  | '\\' => some '\\'
  | '\u0008' => some 'b'
  | '\u000c' => some 'f'
  | '\n' => some 'n'
  | '\r' => some 'r'
  | '\t' => some 't'
  | _ => none

/-- A character as it stands in a string: quotes, backslashes and control characters are escaped,
those with a letter of their own by that letter. -/
def escapeChar (c : Char) : List Char :=
  match escapeLetter? c with
  | some l => ['\\', l]
  | none =>
    if c.toNat < 0x20 then
      ['\\', 'u', '0', '0', hexDigit (c.toNat / 16), hexDigit (c.toNat % 16)]
    else [c]

/-- The content of a string between its quotes. -/
def escaped (s : List Char) : List Char := s.flatMap escapeChar

/-- What a letter behind a backslash stands for. -/
def letterEscape? : Char → Option Char
  | '"' => some '"'
  | '\\' => some '\\'
  | '/' => some '/'
  | 'b' => some '\u0008'
  | 'f' => some '\u000c'
  | 'n' => some '\n'
  | 'r' => some '\r'
  | 't' => some '\t'
  | _ => none

/-- What a string consists of: characters, and the halves of surrogate pairs. -/
inductive StringUnit where
  | char (c : Char)
  | half (n : Nat)
deriving DecidableEq

/-- What an escape with four hexadecimal digits stands for. -/
def StringUnit.ofCode (n : Nat) : StringUnit :=
  if 0xd800 ≤ n ∧ n < 0xe000 then .half n else .char (Char.ofNat n)

/-- The value of four hexadecimal digits. -/
def hexCode? (a b c d : Char) : Option Nat := do
  let a ← hexValue? a
  let b ← hexValue? b
  let c ← hexValue? c
  let d ← hexValue? d
  some (4096 * a + 256 * b + 16 * c + d)

/-- Reads the content of a string up to and with its closing quote. -/
def readBody : List Char → Option (List StringUnit × List Char)
  | [] => none
  | '"' :: rest => some ([], rest)
  | '\\' :: 'u' :: a :: b :: c :: d :: rest => do
    let n ← hexCode? a b c d
    let (units, after) ← readBody rest
    some (.ofCode n :: units, after)
  | '\\' :: e :: rest => do
    let c ← letterEscape? e
    let (units, after) ← readBody rest
    some (.char c :: units, after)
  | c :: rest =>
    if c.toNat < 0x20 ∨ c = '\\' then none
    else do
      let (units, after) ← readBody rest
      some (.char c :: units, after)

/-- The text that a string stands for; none if half of a surrogate pair stands alone. -/
def assemble? : List StringUnit → Option (List Char)
  | [] => some []
  | .char c :: rest => (assemble? rest).map (c :: ·)
  | .half high :: .half low :: rest =>
    if high < 0xdc00 ∧ 0xdc00 ≤ low then
      (assemble? rest).map (Char.ofNat (0x10000 + (high - 0xd800) * 0x400 + (low - 0xdc00)) :: ·)
    else none
  | .half _ :: _ => none

theorem assemble?_chars (s : List Char) : assemble? (s.map .char) = some s := by
  induction s with
  | nil => rfl
  | cons c r ih => simp [assemble?, ih]

/-- What a letter stands for behind a backslash is the character it was written for. -/
theorem letterEscape?_of_escapeLetter? {c l : Char} (h : escapeLetter? c = some l) :
    letterEscape? l = some c ∧ l ≠ 'u' := by
  unfold escapeLetter? at h
  split at h <;> simp_all <;> subst h <;> simp [letterEscape?]

/-- A character without such a letter is neither a quote nor a backslash. -/
theorem ne_of_escapeLetter?_eq_none {c : Char} (h : escapeLetter? c = none) :
    c ≠ '"' ∧ c ≠ '\\' := by
  constructor <;> (rintro rfl; simp [escapeLetter?] at h)

/-- The four digits that are written for a control character have its value. -/
theorem hexCode?_control :
    ∀ n, n < 0x20 → hexCode? '0' '0' (hexDigit (n / 16)) (hexDigit (n % 16)) = some n := by
  decide

/-- An escaped character is read back as that character. -/
theorem readBody_escapeChar (c : Char) (rest : List Char) :
    readBody (escapeChar c ++ rest) =
      (readBody rest).map fun (units, after) => (.char c :: units, after) := by
  unfold escapeChar
  split
  · rename_i l h
    obtain ⟨hl, hu⟩ := letterEscape?_of_escapeLetter? h
    cases hr : readBody rest <;> simp [readBody, hu, hl, hr]
  · rename_i h
    obtain ⟨_, hb⟩ := ne_of_escapeLetter?_eq_none h
    split
    · rename_i hc
      have hx := hexCode?_control c.toNat hc
      have hn : StringUnit.ofCode c.toNat = .char c := by
        rw [StringUnit.ofCode, if_neg (by omega), Char.ofNat_toNat]
      cases hr : readBody rest <;> simp [readBody, hx, hn, hr]
    · rename_i hc
      cases hr : readBody rest <;> simp [readBody, hb, hc, hr]

/-- Reading gives back what was written, and leaves what follows the closing quote. -/
theorem readBody_escaped (s rest : List Char) :
    readBody (escaped s ++ '"' :: rest) = some (s.map .char, rest) := by
  induction s with
  | nil => simp [escaped, readBody]
  | cons c r ih =>
    have : escaped (c :: r) ++ '"' :: rest = escapeChar c ++ (escaped r ++ '"' :: rest) := by
      simp [escaped]
    rw [this, readBody_escapeChar, ih]
    rfl

end TraceRecovery.Json
