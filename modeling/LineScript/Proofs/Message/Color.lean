import LineScript.Message.Color
import LineScript.Proofs.Number.Integer

/-!
# Colours as they are written

Which texts are colours, and which colour each of them is. A channel of two characters is a number
of two hexadecimal digits, or of one digit with a plus sign before it; a channel of one character is
a digit, never a sign.

The same is read from the bytes of a text, where a slice has to begin and end between characters and
a product has to fit into a byte (`checkedOfText_eq`).
-/

namespace LineScript.Color

/-! ## Digits and channels -/

/-- The hexadecimal digits, in either case, with their values. -/
def hexDigits : List (Char × Nat) :=
  Number.digits.zipIdx ++ ['a', 'b', 'c', 'd', 'e', 'f'].zipIdx 10 ++
    ['A', 'B', 'C', 'D', 'E', 'F'].zipIdx 10

section

variable {c : Char} {d : Nat}

theorem toNat_lt_of_hexValue? (value : hexValue? c = some d) : c.toNat < 128 := by
  simp only [hexValue?, Bool.and_eq_true, decide_eq_true_eq, Char.le_def,
    UInt32.le_iff_toNat_le] at value
  have upTo9 : ('9' : Char).val.toNat = 57 := rfl
  have upToSmallF : ('f' : Char).val.toNat = 102 := rfl
  have upToF : ('F' : Char).val.toNat = 70 := rfl
  have size : c.toNat = c.val.toNat := rfl
  split_ifs at value <;> omega

theorem hexValue?_eq_some_iff : hexValue? c = some d ↔ (c, d) ∈ hexDigits := by
  constructor
  · -- A digit is among the first 128 characters, and these are looked through.
    intro value
    have ascii : ∀ n < 128, ∀ d ∈ hexValue? (Char.ofNat n), (Char.ofNat n, d) ∈ hexDigits := by
      decide
    rw [← Char.ofNat_toNat c] at value ⊢
    exact ascii c.toNat (toNat_lt_of_hexValue? (by simpa using value)) d value
  · intro mem
    have read : ∀ digit ∈ hexDigits, hexValue? digit.1 = some digit.2 := by decide
    exact read (c, d) mem

theorem lt_of_hexValue? (value : hexValue? c = some d) : d < 16 := by
  have small : ∀ digit ∈ hexDigits, digit.2 < 16 := by decide
  exact small (c, d) (hexValue?_eq_some_iff.mp value)

end

/-- How a channel is written in two characters. -/
inductive IsChannel : Char → Char → Nat → Prop
  | digits {a b : Char} {high low : Nat} (first : (a, high) ∈ hexDigits)
      (second : (b, low) ∈ hexDigits) : IsChannel a b (16 * high + low)
  | signed {b : Char} {low : Nat} (second : (b, low) ∈ hexDigits) : IsChannel '+' b low

theorem channel?_eq_some_iff {a b : Char} {n : Nat} : channel? a b = some n ↔ IsChannel a b n := by
  unfold channel?
  constructor
  · intro read
    split_ifs at read with sign
    · subst sign
      exact .signed (hexValue?_eq_some_iff.mp read)
    · obtain ⟨high, first, rest⟩ := Option.bind_eq_some_iff.mp read
      obtain ⟨low, second, eq⟩ := Option.bind_eq_some_iff.mp rest
      cases eq
      exact .digits (hexValue?_eq_some_iff.mp first) (hexValue?_eq_some_iff.mp second)
  · intro written
    cases written with
    | digits first second =>
      have noSign : a ≠ '+' := by
        have plain : ∀ digit ∈ hexDigits, digit.1 ≠ '+' := by decide
        exact plain _ first
      rw [if_neg noSign, hexValue?_eq_some_iff.mpr first, hexValue?_eq_some_iff.mpr second]
      rfl
    | signed second => rw [if_pos rfl, hexValue?_eq_some_iff.mpr second]

/-- How a channel is written in one character. -/
def IsShortChannel (a : Char) (n : Nat) : Prop :=
  ∃ d, (a, d) ∈ hexDigits ∧ n = 16 * d + d

/-- A digit that counts twice is a channel of two equal digits. A sign is no digit, and two signs
are no channel. -/
theorem channel?_self (a : Char) : channel? a a = shortChannel? a := by
  unfold channel? shortChannel?
  by_cases sign : a = '+'
  · subst sign
    rfl
  · rw [if_neg sign]
    cases hexValue? a with
    | none => rfl
    | some d => exact congrArg some (show 16 * d + d = 17 * d by omega)

theorem shortChannel?_eq_some_iff {a : Char} {n : Nat} :
    shortChannel? a = some n ↔ IsShortChannel a n := by
  rw [shortChannel?, Option.map_eq_some_iff]
  constructor
  · rintro ⟨d, value, rfl⟩
    exact ⟨d, hexValue?_eq_some_iff.mp value, by omega⟩
  · rintro ⟨d, mem, rfl⟩
    exact ⟨d, hexValue?_eq_some_iff.mpr mem, by omega⟩

/-! ## Colours -/

/-- How a colour is written. -/
inductive Written (color : Color) : List Char → Prop
  | long {a b c d e f : Char} (red : IsChannel a b color.red) (green : IsChannel c d color.green)
      (blue : IsChannel e f color.blue) : Written color ['#', a, b, c, d, e, f]
  | short {a b c : Char} (red : IsShortChannel a color.red) (green : IsShortChannel b color.green)
      (blue : IsShortChannel c color.blue) : Written color ['#', a, b, c]

/-- Three channels make a colour if each of them can be read. -/
theorem three_eq_some_iff {r g b : Option Nat} {color : Color} :
    (do return ⟨← r, ← g, ← b⟩ : Option Color) = some color ↔
      r = some color.red ∧ g = some color.green ∧ b = some color.blue := by
  obtain ⟨red', green', blue'⟩ := color
  cases r with
  | none => simp
  | some red =>
    cases g with
    | none => simp
    | some green =>
      cases b with
      | none => simp
      | some blue => simp

theorem ofText?_eq_some_iff {s : String} {color : Color} :
    ofText? s = some color ↔ Written color s.toList := by
  unfold ofText?
  generalize s.toList = cs
  constructor
  · intro read
    split at read
    case h_1 a b c d e f =>
      obtain ⟨red, green, blue⟩ := three_eq_some_iff.mp read
      exact .long (channel?_eq_some_iff.mp red) (channel?_eq_some_iff.mp green)
        (channel?_eq_some_iff.mp blue)
    case h_2 a b c =>
      obtain ⟨red, green, blue⟩ := three_eq_some_iff.mp read
      exact .short (shortChannel?_eq_some_iff.mp red) (shortChannel?_eq_some_iff.mp green)
        (shortChannel?_eq_some_iff.mp blue)
    case h_3 => cases read
  · intro written
    cases written with
    | long red green blue =>
      exact three_eq_some_iff.mpr ⟨channel?_eq_some_iff.mpr red, channel?_eq_some_iff.mpr green,
        channel?_eq_some_iff.mpr blue⟩
    | short red green blue =>
      exact three_eq_some_iff.mpr ⟨shortChannel?_eq_some_iff.mpr red,
        shortChannel?_eq_some_iff.mpr green, shortChannel?_eq_some_iff.mpr blue⟩

/-- A short form stands for the long one with each character doubled. -/
theorem ofText?_short (a b c : Char) :
    ofText? (String.ofList ['#', a, b, c]) = ofText? (String.ofList ['#', a, a, b, b, c, c]) := by
  simp only [ofText?, String.toList_ofList, channel?_self]

/-! ## Byte by byte -/

/-- A reading that accepts a value or refuses, unless a slice or a number goes wrong on the way. -/
abbrev Checked :=
  OptionT Option

namespace Checked

variable {α β : Type}

/-- A value that may be refused. -/
def accept (answer : Option α) : Checked α :=
  OptionT.mk (some answer)

/-- A value that has to be there. -/
def need (part : Option α) : Checked α :=
  OptionT.mk (part.map some)

theorem need_some_bind (a : α) (f : α → Checked β) : (need (some a) >>= f) = f a :=
  rfl

theorem accept_some_bind (a : α) (f : α → Checked β) : (accept (some a) >>= f) = f a :=
  rfl

end Checked

open Checked

/-- A number as a byte, if it is one. -/
def byte? (n : Nat) : Option Nat :=
  if n < 256 then some n else none

/-- The characters of the first bytes, and the others; the place has to be between characters. -/
def splitAtByte? : List Char → Nat → Option (List Char × List Char)
  | cs, 0 => some ([], cs)
  | [], _ + 1 => none
  | c :: cs, n + 1 =>
    if c.utf8Size ≤ n + 1 then
      (splitAtByte? cs (n + 1 - c.utf8Size)).map fun parts => (c :: parts.1, parts.2)
    else none

/-- The characters between two places, counted in bytes. -/
def slice? (start stop : Nat) (cs : List Char) : Option (List Char) :=
  if start ≤ stop then do
    let before ← splitAtByte? cs start
    let part ← splitAtByte? before.2 (stop - start)
    return part.1
  else none

/-- Digits that go on with a byte. -/
def readDigits (value : Nat) : List Char → Checked Nat
  | [] => pure value
  | c :: rest => do
    let d ← accept (hexValue? c)
    let scaled ← need (byte? (value * 16))
    readDigits (← need (byte? (scaled + d))) rest

/-- A byte in hexadecimal digits; a plus sign may come first, but not alone. -/
def readByte : List Char → Checked Nat
  | [] | ['+'] => accept none
  | '+' :: digits => readDigits 0 digits
  | digits => readDigits 0 digits

/-- What follows the hash, if all of it is in the first 128 characters. -/
def asciiAfterHash? : List Char → Option (List Char)
  | '#' :: hex => if hex.all fun c => c.toNat < 128 then some hex else none
  | _ => none

/-- Three channels of two bytes. -/
def readLong (hex : List Char) : Checked Color := do
  let red ← readByte (← need (slice? 0 2 hex))
  let green ← readByte (← need (slice? 2 4 hex))
  let blue ← readByte (← need (slice? 4 6 hex))
  return ⟨red, green, blue⟩

/-- Three channels of one byte; the value of each is repeated by a product. -/
def readShort (hex : List Char) : Checked Color := do
  let red ← readByte (← need (slice? 0 1 hex))
  let green ← readByte (← need (slice? 1 2 hex))
  let blue ← readByte (← need (slice? 2 3 hex))
  return ⟨← need (byte? (red * 17)), ← need (byte? (green * 17)), ← need (byte? (blue * 17))⟩

/-- A colour, read from the bytes of a text. -/
def checkedOfText (s : String) : Checked Color := do
  let hex ← accept (asciiAfterHash? s.toList)
  match (hex.map Char.utf8Size).sum with
  | 6 => readLong hex
  | 3 => readShort hex
  | _ => accept none

section

variable {cs : List Char} (ascii : ∀ c ∈ cs, c.toNat < 128)
include ascii

theorem utf8Size_eq_one {c : Char} (mem : c ∈ cs) : c.utf8Size = 1 :=
  Char.utf8Size_eq_one_iff.mpr (UInt32.le_iff_toNat_le.mpr (Nat.le_of_lt_succ (ascii c mem)))

theorem sum_utf8Size : (cs.map Char.utf8Size).sum = cs.length := by
  rw [List.map_congr_left (fun c => utf8Size_eq_one ascii), List.map_const', List.sum_replicate]
  simp

theorem splitAtByte?_eq {n : Nat} (inside : n ≤ cs.length) :
    splitAtByte? cs n = some (cs.take n, cs.drop n) := by
  induction n generalizing cs with
  | zero => rw [splitAtByte?, List.take_zero, List.drop_zero]
  | succ n ih =>
    cases cs with
    | nil => cases inside
    | cons c rest =>
      have one := utf8Size_eq_one ascii (List.mem_cons_self ..)
      have later := ih (fun c mem => ascii c (List.mem_cons_of_mem _ mem))
        (Nat.le_of_succ_le_succ inside)
      rw [splitAtByte?, one, if_pos (by omega), Nat.add_sub_cancel, later]
      rfl

theorem slice?_eq {start stop : Nat} (order : start ≤ stop) (inside : stop ≤ cs.length) :
    slice? start stop cs = some ((cs.drop start).take (stop - start)) := by
  have rest : ∀ c ∈ cs.drop start, c.toNat < 128 := fun c mem => ascii c (List.mem_of_mem_drop mem)
  have fits : stop - start ≤ (cs.drop start).length := by
    rw [List.length_drop]
    omega
  rw [slice?, if_pos order, splitAtByte?_eq ascii (Nat.le_trans order inside), Option.bind_eq_bind,
    Option.bind_some, splitAtByte?_eq rest fits]
  rfl

end

/-! ### Channels -/

theorem byte?_of_lt {n : Nat} (small : n < 256) : byte? n = some n :=
  if_pos small

/-- A digit that goes on with a number of one digit stays in a byte. -/
theorem readDigits_cons {value : Nat} (small : value < 16) (c : Char) (rest : List Char) :
    readDigits value (c :: rest) =
      accept (hexValue? c) >>= fun d => readDigits (value * 16 + d) rest := by
  cases digit : hexValue? c with
  | none => rw [readDigits, digit]; rfl
  | some d =>
    have := lt_of_hexValue? digit
    rw [readDigits, digit, accept_some_bind, byte?_of_lt (by omega), need_some_bind,
      byte?_of_lt (by omega), need_some_bind]
    rfl

theorem readDigits_one (a : Char) : readDigits 0 [a] = accept (hexValue? a) := by
  rw [readDigits_cons (by decide)]
  cases hexValue? a with
  | none => rfl
  | some d => simp only [Nat.zero_mul, Nat.zero_add, readDigits]; rfl

theorem readDigits_two (a b : Char) :
    readDigits 0 [a, b] = accept (do return 16 * (← hexValue? a) + (← hexValue? b)) := by
  rw [readDigits_cons (by decide)]
  cases first : hexValue? a with
  | none => rfl
  | some high =>
    rw [accept_some_bind, Nat.zero_mul, Nat.zero_add, readDigits_cons (lt_of_hexValue? first)]
    cases hexValue? b with
    | none => rfl
    | some low => rw [accept_some_bind, Nat.mul_comm high 16]; rfl

theorem readByte_of_ne {a : Char} (noSign : a ≠ '+') (rest : List Char) :
    readByte (a :: rest) = readDigits 0 (a :: rest) := by
  rw [readByte]
  · simp
  · simp [noSign]
  · simp [noSign]

theorem readByte_one (a : Char) : readByte [a] = accept (hexValue? a) := by
  by_cases sign : a = '+'
  · subst sign
    rfl
  · rw [readByte_of_ne sign, readDigits_one]

theorem readByte_two (a b : Char) : readByte [a, b] = accept (channel? a b) := by
  by_cases sign : a = '+'
  · have signed : readByte ['+', b] = readDigits 0 [b] := rfl
    rw [sign, signed, readDigits_one, channel?, if_pos rfl]
  · rw [readByte_of_ne sign, readDigits_two, channel?, if_neg sign]

/-! ### Whole texts -/

theorem isAscii_of_mem_hexDigits {c : Char} {d : Nat} (mem : (c, d) ∈ hexDigits) :
    c.toNat < 128 :=
  toNat_lt_of_hexValue? (hexValue?_eq_some_iff.mpr mem)

theorem IsChannel.isAscii {a b : Char} {n : Nat} (written : IsChannel a b n) :
    a.toNat < 128 ∧ b.toNat < 128 := by
  cases written with
  | digits first second => exact ⟨isAscii_of_mem_hexDigits first, isAscii_of_mem_hexDigits second⟩
  | signed second => exact ⟨by decide, isAscii_of_mem_hexDigits second⟩

/-- A colour is a hash and six or three characters, all of them of one byte. -/
theorem Written.shape {color : Color} {cs : List Char} (written : Written color cs) :
    ∃ hex, asciiAfterHash? cs = some hex ∧ (hex.length = 6 ∨ hex.length = 3) := by
  cases written with
  | @long a b c d e f red green blue =>
    have ascii := And.intro red.isAscii (And.intro green.isAscii blue.isAscii)
    exact ⟨[a, b, c, d, e, f], if_pos (by simpa [and_assoc] using ascii), .inl rfl⟩
  | @short a b c red green blue =>
    obtain ⟨r, isRed, -⟩ := red
    obtain ⟨g, isGreen, -⟩ := green
    obtain ⟨b, isBlue, -⟩ := blue
    have ascii := And.intro (isAscii_of_mem_hexDigits isRed)
      (And.intro (isAscii_of_mem_hexDigits isGreen) (isAscii_of_mem_hexDigits isBlue))
    exact ⟨[_, _, _], if_pos (by simpa using ascii), .inr rfl⟩

theorem asciiAfterHash?_eq_some {cs hex : List Char} (eq : asciiAfterHash? cs = some hex) :
    cs = '#' :: hex ∧ ∀ c ∈ hex, c.toNat < 128 := by
  unfold asciiAfterHash? at eq
  split at eq
  case h_1 rest =>
    obtain ⟨ascii, same⟩ := Option.ite_none_right_eq_some.mp eq
    cases same
    exact ⟨rfl, by simpa using ascii⟩
  case h_2 => cases eq

theorem accept_three (r g b : Option Nat) :
    (do return ⟨← accept r, ← accept g, ← accept b⟩ : Checked Color) =
      accept (do return ⟨← r, ← g, ← b⟩) := by
  cases r with
  | none => rfl
  | some red =>
    cases g with
    | none => rfl
    | some green => cases b <;> rfl

theorem readLong_eq {a b c d e f : Char} (ascii : ∀ x ∈ [a, b, c, d, e, f], x.toNat < 128) :
    readLong [a, b, c, d, e, f] =
      accept (do return ⟨← channel? a b, ← channel? c d, ← channel? e f⟩) := by
  rw [readLong, slice?_eq ascii (by decide) (by simp), slice?_eq ascii (by decide) (by simp),
    slice?_eq ascii (by decide) (by simp), ← accept_three]
  show (readByte [a, b] >>= fun red => readByte [c, d] >>= fun green =>
    readByte [e, f] >>= fun blue => pure ⟨red, green, blue⟩ : Checked Color) = _
  rw [readByte_two, readByte_two, readByte_two]

theorem readShort_eq {a b c : Char} (ascii : ∀ x ∈ [a, b, c], x.toNat < 128) :
    readShort [a, b, c] =
      accept (do return ⟨← shortChannel? a, ← shortChannel? b, ← shortChannel? c⟩) := by
  have repeated {x : Char} {d : Nat} (value : hexValue? x = some d) :
      byte? (d * 17) = some (17 * d) := by
    have := lt_of_hexValue? value
    rw [byte?_of_lt (by omega), Nat.mul_comm]
  rw [readShort, slice?_eq ascii (by decide) (by simp), slice?_eq ascii (by decide) (by simp),
    slice?_eq ascii (by decide) (by simp)]
  show (readByte [a] >>= fun red => readByte [b] >>= fun green =>
    readByte [c] >>= fun blue => _ : Checked Color) = _
  simp only [readByte_one, shortChannel?]
  cases red : hexValue? a with
  | none => rfl
  | some r =>
    cases green : hexValue? b with
    | none => rfl
    | some g =>
      cases blue : hexValue? c with
      | none => rfl
      | some b =>
        rw [accept_some_bind, accept_some_bind, accept_some_bind, repeated red, repeated green,
          repeated blue]
        rfl

/-- Nothing goes wrong between the bytes of a text. -/
theorem checkedOfText_eq (s : String) : checkedOfText s = accept (ofText? s) := by
  have shape {color : Color} (read : ofText? s = some color) :=
    (ofText?_eq_some_iff.mp read).shape
  rw [checkedOfText]
  cases after : asciiAfterHash? s.toList with
  | none =>
    -- A colour would have a hash and plain characters.
    have refused : ofText? s = none := by
      rw [Option.eq_none_iff_forall_ne_some]
      intro color read
      obtain ⟨hex, eq, -⟩ := shape read
      cases after.symm.trans eq
    rw [refused]
    rfl
  | some hex =>
    obtain ⟨whole, ascii⟩ := asciiAfterHash?_eq_some after
    rw [accept_some_bind, sum_utf8Size ascii]
    split
    case h_1 six =>
      match hex, six with
      | [a, b, c, d, e, f], _ =>
        rw [readLong_eq ascii, ofText?, whole]
        rfl
    case h_2 three =>
      match hex, three with
      | [a, b, c], _ =>
        rw [readShort_eq ascii, ofText?, whole]
        rfl
    case h_3 noSix noThree =>
      have refused : ofText? s = none := by
        rw [Option.eq_none_iff_forall_ne_some]
        intro color read
        obtain ⟨hex', eq, length⟩ := shape read
        cases after.symm.trans eq
        exact not_or.mpr ⟨noSix, noThree⟩ length
      rw [refused]

/-! ## Which texts are colours -/

/-- A hash and six or three hexadecimal digits. -/
def IsHexadecimal (cs : List Char) : Prop :=
  ∃ digits, cs = '#' :: digits ∧ (digits.length = 6 ∨ digits.length = 3) ∧
    ∀ c ∈ digits, ∃ d, (c, d) ∈ hexDigits

theorem IsChannel.digits_of_ne {a b : Char} {n : Nat} (written : IsChannel a b n)
    (noSign : a ≠ '+') : (∃ d, (a, d) ∈ hexDigits) ∧ ∃ d, (b, d) ∈ hexDigits := by
  cases written with
  | digits first second => exact ⟨⟨_, first⟩, ⟨_, second⟩⟩
  | signed second => exact absurd rfl noSign

/-- Without signs the colours are the texts of six or three digits. -/
theorem exists_written_iff {cs : List Char} (noSign : '+' ∉ cs) :
    (∃ color, Written color cs) ↔ IsHexadecimal cs := by
  constructor
  · rintro ⟨color, written⟩
    cases written with
    | @long a b c d e f red green blue =>
      have plain {x : Char} (mem : x ∈ ['#', a, b, c, d, e, f]) : x ≠ '+' :=
        fun eq => noSign (eq ▸ mem)
      obtain ⟨isA, isB⟩ := red.digits_of_ne (plain (by simp))
      obtain ⟨isC, isD⟩ := green.digits_of_ne (plain (by simp))
      obtain ⟨isE, isF⟩ := blue.digits_of_ne (plain (by simp))
      refine ⟨[a, b, c, d, e, f], rfl, .inl rfl, ?_⟩
      simp only [List.forall_mem_cons]
      exact ⟨isA, isB, isC, isD, isE, isF, nofun⟩
    | @short a b c red green blue =>
      obtain ⟨r, isA, -⟩ := red
      obtain ⟨g, isB, -⟩ := green
      obtain ⟨b', isC, -⟩ := blue
      refine ⟨[a, b, c], rfl, .inr rfl, ?_⟩
      simp only [List.forall_mem_cons]
      exact ⟨⟨r, isA⟩, ⟨g, isB⟩, ⟨b', isC⟩, nofun⟩
  · rintro ⟨digits, rfl, six | three, all⟩
    · match digits, six with
      | [a, b, c, d, e, f], _ =>
        simp only [List.forall_mem_cons] at all
        obtain ⟨⟨_, isA⟩, ⟨_, isB⟩, ⟨_, isC⟩, ⟨_, isD⟩, ⟨_, isE⟩, ⟨_, isF⟩, -⟩ := all
        exact ⟨⟨_, _, _⟩, .long (.digits isA isB) (.digits isC isD) (.digits isE isF)⟩
    · match digits, three with
      | [a, b, c], _ =>
        simp only [List.forall_mem_cons] at all
        obtain ⟨⟨_, isA⟩, ⟨_, isB⟩, ⟨_, isC⟩, -⟩ := all
        exact ⟨⟨_, _, _⟩, .short ⟨_, isA, rfl⟩ ⟨_, isB, rfl⟩ ⟨_, isC, rfl⟩⟩

/-- A text is a colour exactly if it is a hash and three channels, each of two hexadecimal digits or
of a plus sign and one digit, or a hash and three digits, which stand for the same digits doubled.
So without a plus sign it is one exactly if six or three digits follow the hash. No slice and no
number goes wrong in any text. -/
theorem channels_are_digits_or_signed (s : String) :
    (∀ color, ofText? s = some color ↔ Written color s.toList) ∧
      (∀ a b c, ofText? (String.ofList ['#', a, b, c]) =
        ofText? (String.ofList ['#', a, a, b, b, c, c])) ∧
      ('+' ∉ s.toList → ((∃ color, ofText? s = some color) ↔ IsHexadecimal s.toList)) ∧
      checkedOfText s = accept (ofText? s) := by
  refine ⟨fun color => ofText?_eq_some_iff, ofText?_short, fun noSign => ?_, checkedOfText_eq s⟩
  rw [← exists_written_iff noSign]
  simp only [ofText?_eq_some_iff]

/-- A sign is taken where a digit is asked for. -/
theorem signs_are_taken_for_digits :
    ofText? "#+1+2+3" = some ⟨1, 2, 3⟩ ∧ ¬ IsHexadecimal "#+1+2+3".toList := by
  refine ⟨by decide, ?_⟩
  rintro ⟨digits, eq, -, all⟩
  have sign : '+' ∈ digits := by
    cases eq
    decide
  obtain ⟨d, mem⟩ := all '+' sign
  cases hexValue?_eq_some_iff.mpr mem

end LineScript.Color
