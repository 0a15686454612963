import ProofboundRuntime.Lib.Result
import ProofboundRuntime.Lib.Utf8

/-!
# ASCII text: hexadecimal and decimal numerals

Texts that are written byte by byte in ASCII.  `Hex.text` spells a byte string
with two lowercase digits a byte; it is injective and keeps the order.
`Hex.array` reads it back and nothing else (`Hex.array_eq_ok`).

`Decimal.text` spells a number without leading zeros, and `Decimal.value` reads
such a spelling.  `Decimal.parse` also takes a leading `+` and leading zeros; what it
reads is the spelling of a number exactly when it is `Decimal.Plain`.
-/

namespace ProofboundRuntime

open Result

namespace Ascii

/-- The text of the given ASCII bytes. -/
def text (bytes : List UInt8) : String :=
  String.ofList (bytes.map fun b => Char.ofNat b.toNat)

def isDigit (b : UInt8) : Bool := 0x30 ≤ b && b ≤ 0x39

def isLowercase (b : UInt8) : Bool := 0x61 ≤ b && b ≤ 0x7a

/-- A digit or one of the letters `a` to `f`. -/
def isLowerHex (b : UInt8) : Bool := isDigit b || (0x61 ≤ b && b ≤ 0x66)

theorem bytes_text {bytes : List UInt8} (h : ∀ b ∈ bytes, b < 128) :
    Utf8.bytes (text bytes) = bytes := by
  have hall : ∀ n : Fin 128,
      String.utf8EncodeChar (Char.ofNat n) = [UInt8.ofNat n] := by
    decide +kernel
  have hone : ∀ b : UInt8, b < 128 → String.utf8EncodeChar (Char.ofNat b.toNat) = [b] := by
    intro b hb
    have hlt : b.toNat < 128 := UInt8.lt_iff_toNat_lt.mp hb
    simpa using hall ⟨b.toNat, hlt⟩
  unfold text
  rw [Utf8.bytes_ofList, List.flatMap_map]
  induction bytes with
  | nil => rfl
  | cons b bytes ih =>
    rw [List.forall_mem_cons] at h
    rw [List.flatMap_cons, hone b h.1, ih h.2]
    rfl

theorem lt_of_isLowerHex {b : UInt8} (h : isLowerHex b = true) : b < 128 := by
  simp only [isLowerHex, isDigit, Bool.or_eq_true, Bool.and_eq_true, decide_eq_true_eq,
    UInt8.le_iff_toNat_le, UInt8.reduceToNat] at h
  rw [UInt8.lt_iff_toNat_lt]
  simp only [UInt8.reduceToNat]
  omega

/-- The bytes in groups of the given lengths, and a last group with the rest,
separated by dashes. -/
def group : List Nat → List UInt8 → List UInt8
  | [], bytes => bytes
  | n :: lengths, bytes => bytes.take n ++ 0x2d :: group lengths (bytes.drop n)

theorem mem_group {lengths : List Nat} {bytes : List UInt8} {b : UInt8}
    (h : b ∈ group lengths bytes) : b = 0x2d ∨ b ∈ bytes := by
  induction lengths generalizing bytes with
  | nil => exact .inr h
  | cons n lengths ih =>
    rw [group, List.mem_append, List.mem_cons] at h
    rcases h with h | h | h
    · exact .inr (List.mem_of_mem_take h)
    · exact .inl h
    · exact (ih h).imp_right List.mem_of_mem_drop

theorem group_inj {lengths : List Nat} {a b : List UInt8} (hlength : a.length = b.length)
    (h : group lengths a = group lengths b) : a = b := by
  induction lengths generalizing a b with
  | nil => exact h
  | cons n lengths ih =>
    have htake : (a.take n).length = (b.take n).length := by
      rw [List.length_take, List.length_take, hlength]
    obtain ⟨hfirst, hrest⟩ := List.append_inj h htake
    have hdrop : a.drop n = b.drop n := by
      refine ih ?_ (List.cons.inj hrest).2
      rw [List.length_drop, List.length_drop, hlength]
    rw [← List.take_append_drop n a, hfirst, hdrop, List.take_append_drop]

end Ascii

/-! ## Hexadecimal -/

namespace Hex

def digits : List UInt8 :=
  [0x30, 0x31, 0x32, 0x33, 0x34, 0x35, 0x36, 0x37, 0x38, 0x39, 0x61, 0x62, 0x63, 0x64, 0x65,
    0x66]

def digit (n : UInt8) : UInt8 := digits.getD n.toNat 0

/-- The two digits of a byte. -/
def pair (b : UInt8) : List UInt8 := [digit (b >>> 4), digit (b &&& 0x0f)]

/-- The ASCII digits of a byte string. -/
def ascii (bytes : List UInt8) : List UInt8 := bytes.flatMap pair

def text (bytes : List UInt8) : String := Ascii.text (ascii bytes)

/-- What is needed of the digits of one byte, checked for every byte. -/
theorem pair_spec (b : UInt8) :
    ∃ high low : UInt8, pair b = [high, low] ∧ Ascii.isLowerHex high ∧ Ascii.isLowerHex low := by
  have hall : ∀ n : Fin 256, Ascii.isLowerHex (digit (UInt8.ofNat n >>> 4)) ∧
      Ascii.isLowerHex (digit (UInt8.ofNat n &&& 0x0f)) := by
    decide +kernel
  have hb := hall ⟨b.toNat, b.toNat_lt⟩
  rw [UInt8.ofNat_toNat] at hb
  exact ⟨_, _, rfl, hb.1, hb.2⟩

theorem isLowerHex_ascii (bytes : List UInt8) :
    ∀ c ∈ ascii bytes, Ascii.isLowerHex c = true := by
  intro c hc
  obtain ⟨b, _, hc⟩ := List.mem_flatMap.mp hc
  obtain ⟨high, low, hpair, hhigh, hlow⟩ := pair_spec b
  rw [hpair] at hc
  simp only [List.mem_cons, List.not_mem_nil, or_false] at hc
  rcases hc with hc | hc
  · rwa [hc]
  · rwa [hc]

@[simp] theorem bytes_text (bytes : List UInt8) : Utf8.bytes (text bytes) = ascii bytes :=
  Ascii.bytes_text fun c hc => Ascii.lt_of_isLowerHex (isLowerHex_ascii bytes c hc)

@[simp] theorem length_ascii (bytes : List UInt8) :
    (ascii bytes).length = 2 * bytes.length := by
  unfold ascii
  rw [List.length_flatMap]
  simp [pair, Nat.mul_comm]

/-- A smaller byte has smaller digits. -/
theorem compare_pair_of_lt {a b : UInt8} (h : a < b) : compare (pair a) (pair b) = .lt := by
  have hdigit : ∀ m n : Fin 16, m < n →
      compare (digit (UInt8.ofNat m)) (digit (UInt8.ofNat n)) = .lt := by
    decide +kernel
  have hhigh : ∀ c : UInt8, (c >>> 4).toNat = c.toNat / 16 := by
    intro c
    rw [UInt8.toNat_shiftRight]
    exact Nat.shiftRight_eq_div_pow _ 4
  have hlow : ∀ c : UInt8, (c &&& 0x0f).toNat = c.toNat % 16 := by
    intro c
    rw [UInt8.toNat_and]
    exact Nat.and_two_pow_sub_one_eq_mod _ 4
  have hlt := UInt8.lt_iff_toNat_lt.mp h
  have ha := a.toNat_lt
  have hb := b.toNat_lt
  unfold pair
  rw [List.compare_cons_cons, List.compare_cons_cons]
  by_cases heq : a.toNat / 16 = b.toNat / 16
  · have hsame : a >>> 4 = b >>> 4 := UInt8.toNat_inj.mp (by rw [hhigh, hhigh, heq])
    have hstep := hdigit ⟨a.toNat % 16, by omega⟩ ⟨b.toNat % 16, by omega⟩
      (Fin.mk_lt_mk.mpr (by omega))
    simp only [← hlow, UInt8.ofNat_toNat] at hstep
    rw [hsame, Std.ReflOrd.compare_self, hstep]
    rfl
  · have hstep := hdigit ⟨a.toNat / 16, by omega⟩ ⟨b.toNat / 16, by omega⟩
      (Fin.mk_lt_mk.mpr (by omega))
    simp only [← hhigh, UInt8.ofNat_toNat] at hstep
    rw [hstep]
    rfl

/-- The digits of a byte are compared as the byte is. -/
theorem compare_pair (a b : UInt8) : compare (pair a) (pair b) = compare a b := by
  rcases Nat.lt_trichotomy a.toNat b.toNat with hlt | heq | hgt
  · rw [← UInt8.lt_iff_toNat_lt] at hlt
    rw [compare_pair_of_lt hlt, Std.compare_eq_lt.mpr hlt]
  · rw [UInt8.toNat_inj.mp heq, Std.ReflOrd.compare_self, Std.ReflOrd.compare_self]
  · rw [← UInt8.lt_iff_toNat_lt] at hgt
    rw [Std.OrientedOrd.eq_swap, compare_pair_of_lt hgt, Std.compare_eq_gt.mpr hgt]
    rfl

/-- The digits of a byte string are compared as the byte string is. -/
theorem compare_ascii (a b : List UInt8) : compare (ascii a) (ascii b) = compare a b := by
  induction a generalizing b with
  | nil =>
    cases b with
    | nil => rfl
    | cons y b => rfl
  | cons x a ih =>
    cases b with
    | nil => rfl
    | cons y b =>
      have hpair := compare_pair x y
      unfold ascii pair at *
      simp only [List.flatMap_cons, List.cons_append, List.nil_append,
        List.compare_cons_cons] at hpair ih ⊢
      rw [ih, ← hpair]
      cases compare (digit (x >>> 4)) (digit (y >>> 4)) <;>
        cases compare (digit (x &&& 0x0f)) (digit (y &&& 0x0f)) <;> rfl

theorem ascii_injective : Function.Injective ascii := by
  intro a b h
  have hcompare := compare_ascii a b
  rw [h, Std.ReflOrd.compare_self] at hcompare
  exact Std.LawfulEqOrd.eq_of_compare hcompare.symm

theorem text_injective : Function.Injective text := by
  intro a b h
  have hbytes := congrArg Utf8.bytes h
  rw [bytes_text, bytes_text] at hbytes
  exact ascii_injective hbytes

/-- Texts of digits are compared as the bytes they spell. -/
theorem cmp_text (a b : List UInt8) : Utf8.cmp (text a) (text b) = compare a b := by
  unfold Utf8.cmp
  rw [bytes_text, bytes_text, compare_ascii]

/-- The value of a lowercase digit. -/
def nibble (b : UInt8) : Option UInt8 :=
  if 0x30 ≤ b ∧ b ≤ 0x39 then some (b - 0x30)
  else if 0x61 ≤ b ∧ b ≤ 0x66 then some (b - 0x61 + 10)
  else none

/-- The bytes that pairs of digits spell. -/
def parse : List UInt8 → Option (List UInt8)
  | [] => some []
  | [_] => none
  | high :: low :: rest => do
    let high ← nibble high
    let low ← nibble low
    let rest ← parse rest
    some ((high <<< 4 ||| low) :: rest)

theorem nibble_pair (b : UInt8) :
    ∃ high low, nibble (digit (b >>> 4)) = some high ∧ nibble (digit (b &&& 0x0f)) = some low ∧
      high <<< 4 ||| low = b := by
  have hall : ∀ n : Fin 256, nibble (digit (UInt8.ofNat n >>> 4)) = some (UInt8.ofNat n >>> 4) ∧
      nibble (digit (UInt8.ofNat n &&& 0x0f)) = some (UInt8.ofNat n &&& 0x0f) ∧
      (UInt8.ofNat n >>> 4) <<< 4 ||| (UInt8.ofNat n &&& 0x0f) = UInt8.ofNat n := by
    decide +kernel
  have hb := hall ⟨b.toNat, b.toNat_lt⟩
  rw [UInt8.ofNat_toNat] at hb
  exact ⟨_, _, hb⟩

@[simp] theorem parse_ascii (bytes : List UInt8) : parse (ascii bytes) = some bytes := by
  induction bytes with
  | nil => rfl
  | cons b bytes ih =>
    obtain ⟨high, low, hhigh, hlow, hb⟩ := nibble_pair b
    show parse (digit (b >>> 4) :: digit (b &&& 0x0f) :: ascii bytes) = _
    rw [parse, hhigh, hlow, ih]
    show some ((high <<< 4 ||| low) :: bytes) = _
    rw [hb]

/-- A digit is the digit of its value. -/
theorem digit_of_nibble {b n : UInt8} (h : nibble b = some n) : n < 16 ∧ digit n = b := by
  have hall : ∀ b : Fin 256,
      (nibble (UInt8.ofNat b)).all (fun n => n < 16 && digit n == UInt8.ofNat b) = true := by
    decide +kernel
  have hb := hall ⟨b.toNat, b.toNat_lt⟩
  rwa [UInt8.ofNat_toNat, h, Option.all_some, Bool.and_eq_true, decide_eq_true_eq,
    beq_iff_eq] at hb

theorem pair_of_nibbles {high low : UInt8} (hhigh : high < 16) (hlow : low < 16) :
    pair (high <<< 4 ||| low) = [digit high, digit low] := by
  have hall : ∀ high low : Fin 16,
      pair (UInt8.ofNat high <<< 4 ||| UInt8.ofNat low) =
        [digit (UInt8.ofNat high), digit (UInt8.ofNat low)] := by
    decide +kernel
  have hpair := hall ⟨high.toNat, UInt8.lt_iff_toNat_lt.mp hhigh⟩
    ⟨low.toNat, UInt8.lt_iff_toNat_lt.mp hlow⟩
  rwa [UInt8.ofNat_toNat, UInt8.ofNat_toNat] at hpair

/-- Only the digits of a byte string are read as it. -/
theorem ascii_of_parse {input bytes : List UInt8} (h : parse input = some bytes) :
    ascii bytes = input := by
  induction input using parse.induct generalizing bytes with
  | case1 =>
    cases h
    rfl
  | case2 b => cases h
  | case3 high low rest ih =>
    simp only [parse, Option.bind_eq_bind, Option.bind_eq_some_iff, Option.some.injEq] at h
    obtain ⟨n, hn, m, hm, bytes', hrest, rfl⟩ := h
    obtain ⟨hn16, hhigh⟩ := digit_of_nibble hn
    obtain ⟨hm16, hlow⟩ := digit_of_nibble hm
    show pair (n <<< 4 ||| m) ++ ascii bytes' = high :: low :: rest
    rw [pair_of_nibbles hn16 hm16, ih hrest, hhigh, hlow]
    rfl

variable {ε : Type}

/-- An array of `n` bytes from its digits, with the error of another length and that of
another character. -/
def array (n : Nat) (length character : ε) (value : String) : Except ε (Vector UInt8 n) := do
  let input := Utf8.bytes value
  rejectIf (input.length ≠ n * 2) length
  let bytes ← okOr (parse input) character
  -- one byte for each pair of digits
  if h : bytes.length = n then .ok ⟨bytes.toArray, h⟩ else .error length

/-- An array has one spelling. -/
theorem array_eq_ok {n : Nat} {length character : ε} {value : String} {bytes : Vector UInt8 n} :
    array n length character value = .ok bytes ↔ value = text bytes.toList := by
  rw [array, check_bind_eq_ok, rejectIf_eq_ok, not_not, bind_eq_ok]
  constructor
  · intro ⟨_, output, houtput, hbytes⟩
    rw [okOr_eq_ok] at houtput
    split at hbytes
    next hn =>
      cases hbytes
      rw [← Utf8.bytes_inj, bytes_text]
      exact (ascii_of_parse houtput).symm
    next => cases hbytes
  · intro h
    have hlength : bytes.toList.length = n := Vector.length_toList
    rw [h, bytes_text, length_ascii, hlength, parse_ascii]
    refine ⟨Nat.mul_comm 2 n, bytes.toList, rfl, ?_⟩
    rw [dif_pos hlength]
    exact congrArg _ (Vector.toArray_inj.mp Array.toArray_toList)

end Hex

/-! ## Decimal -/

namespace Decimal

/-- The decimal spelling of a number. -/
def text (n : Nat) : String := Nat.repr n

/-- The number that a string of ASCII digits spells. -/
def value (bytes : List UInt8) : Nat :=
  bytes.foldl (fun acc b => acc * 10 + (b.toNat - 0x30)) 0

/-- The last digit comes off the end. -/
theorem bytes_text_eq (n : Nat) : Utf8.bytes (text n) =
    if n < 10 then [UInt8.ofNat (0x30 + n)]
    else Utf8.bytes (text (n / 10)) ++ [UInt8.ofNat (0x30 + n % 10)] := by
  have hdigit : ∀ d : Fin 10,
      String.utf8EncodeChar (Nat.digitChar d) = [UInt8.ofNat (0x30 + d)] := by
    decide +kernel
  unfold text
  rw [Nat.repr_eq_ofList_toDigits, Nat.repr_eq_ofList_toDigits, Utf8.bytes_ofList,
    Utf8.bytes_ofList, Nat.toDigits_eq_if (by omega)]
  split
  next h => simpa using hdigit ⟨n, h⟩
  next h =>
    have := hdigit ⟨n % 10, by omega⟩
    simp [this]

theorem isDigit_ofNat {d : Nat} (h : d < 10) : Ascii.isDigit (UInt8.ofNat (0x30 + d)) = true := by
  have hall : ∀ d : Fin 10, Ascii.isDigit (UInt8.ofNat (0x30 + d)) = true := by
    decide
  exact hall ⟨d, h⟩

theorem isDigit_text (n : Nat) : ∀ b ∈ Utf8.bytes (text n), Ascii.isDigit b = true := by
  induction n using Nat.strongRecOn with
  | ind n ih =>
    intro b hb
    rw [bytes_text_eq] at hb
    split at hb
    next h =>
      rw [List.mem_singleton] at hb
      rw [hb]
      exact isDigit_ofNat h
    next h =>
      rcases List.mem_append.mp hb with hb | hb
      · exact ih (n / 10) (by omega) b hb
      · rw [List.mem_singleton] at hb
        rw [hb]
        exact isDigit_ofNat (by omega)

theorem text_ne_nil (n : Nat) : Utf8.bytes (text n) ≠ [] := by
  rw [bytes_text_eq]
  split <;> simp

/-- Only zero starts with the digit zero. -/
theorem eq_zero_of_head (n : Nat) (h : (Utf8.bytes (text n)).head? = some 0x30) : n = 0 := by
  induction n using Nat.strongRecOn with
  | ind n ih =>
    rw [bytes_text_eq] at h
    split at h
    next hlt =>
      have hall : ∀ d : Fin 10, UInt8.ofNat (0x30 + d) = 0x30 → d = 0 := by
        decide
      have := hall ⟨n, hlt⟩ (by simpa using h)
      exact congrArg Fin.val this
    next hge =>
      rw [List.head?_append_of_ne_nil _ (text_ne_nil _)] at h
      have := ih (n / 10) (by omega) h
      omega

/-- The spelling of a number is read back. -/
theorem value_text (n : Nat) : value (Utf8.bytes (text n)) = n := by
  have hdigit : ∀ d : Fin 10, (UInt8.ofNat (0x30 + d)).toNat - 0x30 = d := by
    decide
  induction n using Nat.strongRecOn with
  | ind n ih =>
    rw [bytes_text_eq]
    split
    next h => simpa [value] using hdigit ⟨n, h⟩
    next h =>
      have hlast : (UInt8.ofNat (0x30 + n % 10)).toNat - 0x30 = n % 10 :=
        hdigit ⟨n % 10, by omega⟩
      have hrest := ih (n / 10) (by omega)
      unfold value at hrest ⊢
      rw [List.foldl_append, hrest, List.foldl_cons, List.foldl_nil, hlast]
      omega

theorem text_injective : Function.Injective text := by
  intro m n h
  rw [← value_text m, ← value_text n, h]

theorem value_concat (digits : List UInt8) (d : UInt8) :
    value (digits ++ [d]) = value digits * 10 + (d.toNat - 0x30) := by
  rw [value, List.foldl_append]
  rfl

theorem digit_of_isDigit {d : UInt8} (h : Ascii.isDigit d = true) :
    d.toNat - 0x30 < 10 ∧ UInt8.ofNat (0x30 + (d.toNat - 0x30)) = d := by
  rw [Ascii.isDigit, Bool.and_eq_true, decide_eq_true_eq, decide_eq_true_eq,
    UInt8.le_iff_toNat_le, UInt8.le_iff_toNat_le] at h
  have hlow : 48 ≤ d.toNat := h.1
  have hhigh : d.toNat ≤ 57 := h.2
  refine ⟨by omega, ?_⟩
  rw [Nat.add_sub_cancel' hlow, UInt8.ofNat_toNat]

/-- Digits that do not start with a zero, and a single zero, are the spelling of their number. -/
theorem bytes_text_value {digits : List UInt8} (hne : digits ≠ [])
    (hdigits : ∀ b ∈ digits, Ascii.isDigit b = true)
    (hzero : 1 < digits.length → digits.head? ≠ some 0x30) :
    Utf8.bytes (text (value digits)) = digits := by
  -- the last digit is what `bytes_text_eq` takes off
  induction digits using List.reverseRecOn with
  | nil => exact absurd rfl hne
  | append_singleton digits d ih =>
    have hd := digit_of_isDigit (hdigits d (by simp))
    rw [value_concat, bytes_text_eq]
    by_cases hnil : digits = []
    · subst hnil
      rw [show value [] = 0 from rfl, Nat.zero_mul, Nat.zero_add, if_pos hd.1, hd.2]
      rfl
    · have hhead : digits.head? ≠ some 0x30 := by
        have hlength := List.length_pos_iff.mpr hnil
        have hlonger : 1 < (digits ++ [d]).length := by
          rw [List.length_append, List.length_singleton]
          omega
        have := hzero hlonger
        rwa [List.head?_append_of_ne_nil _ hnil] at this
      have hrest := ih hnil (fun b hb => hdigits b (by simp [hb])) (fun _ => hhead)
      have hpos : value digits ≠ 0 := by
        intro h0
        rw [h0] at hrest
        exact hhead (hrest ▸ rfl)
      have hge : ¬ value digits * 10 + (d.toNat - 0x30) < 10 := by omega
      have hdiv : (value digits * 10 + (d.toNat - 0x30)) / 10 = value digits := by omega
      have hmod : (value digits * 10 + (d.toNat - 0x30)) % 10 = d.toNat - 0x30 := by omega
      rw [if_neg hge, hdiv, hmod, hrest, hd.2]

/-- What stands after a leading `+`, if there is one. -/
def unsigned (bytes : List UInt8) : List UInt8 :=
  if bytes.head? = some 0x2b then bytes.tail else bytes

/-- The number that a text spells, with or without a `+` before its digits. -/
def spelled (text : String) : Nat := value (unsigned (Utf8.bytes text))

/-- `str::parse` of an unsigned integer below `bound`.  The digits may stand after a `+`, and
they may start with zeros. -/
def parse (bound : Nat) (text : String) : Option Nat :=
  let digits := unsigned (Utf8.bytes text)
  if digits ≠ [] ∧ digits.all Ascii.isDigit ∧ spelled text < bound then some (spelled text)
  else none

/-- There is no `+`, and no zero before another digit. -/
def Plain (text : String) : Prop :=
  (Utf8.bytes text).head? ≠ some 0x2b ∧
    (1 < (Utf8.bytes text).length → (Utf8.bytes text).head? ≠ some 0x30)

instance (text : String) : Decidable (Plain text) := inferInstanceAs (Decidable (_ ∧ _))

theorem unsigned_of_head {bytes : List UInt8} (h : bytes.head? ≠ some 0x2b) :
    unsigned bytes = bytes :=
  if_neg h

theorem plain_text (n : Nat) : Plain (text n) := by
  constructor
  · intro hhead
    have hdigit := isDigit_text n 0x2b (List.mem_of_mem_head? hhead)
    revert hdigit
    decide
  · intro hlength hhead
    rw [eq_zero_of_head n hhead] at hlength
    revert hlength
    decide

theorem spelled_text (n : Nat) : spelled (text n) = n := by
  rw [spelled, unsigned_of_head (plain_text n).1, value_text]

theorem parse_text {n bound : Nat} (h : n < bound) : parse bound (text n) = some n := by
  have hdigits : (Utf8.bytes (text n)).all Ascii.isDigit = true :=
    List.all_eq_true.mpr (isDigit_text n)
  rw [parse, unsigned_of_head (plain_text n).1, spelled_text, if_pos ⟨text_ne_nil n, hdigits, h⟩]

theorem parse_eq_some {bound n : Nat} {text : String} :
    parse bound text = some n ↔
      unsigned (Utf8.bytes text) ≠ [] ∧
        (∀ b ∈ unsigned (Utf8.bytes text), Ascii.isDigit b = true) ∧
        spelled text = n ∧ n < bound := by
  rw [parse, Option.ite_none_right_eq_some, List.all_eq_true]
  constructor
  · intro ⟨⟨hne, hdigits, hlt⟩, hn⟩
    cases hn
    exact ⟨hne, hdigits, rfl, hlt⟩
  · intro ⟨hne, hdigits, hn, hlt⟩
    subst hn
    exact ⟨⟨hne, hdigits, hlt⟩, rfl⟩

/-- A text that is read as a number is the spelling of the number exactly when it is plain. -/
theorem eq_text_iff_plain {bound n : Nat} {s : String} (h : parse bound s = some n) :
    s = text n ↔ Plain s := by
  obtain ⟨hne, hdigits, hn, -⟩ := parse_eq_some.mp h
  constructor
  · intro hs
    rw [hs]
    exact plain_text n
  · intro hplain
    rw [unsigned_of_head hplain.1] at hne hdigits
    have hbytes := bytes_text_value hne hdigits hplain.2
    rw [← Utf8.bytes_inj, ← hn, spelled, unsigned_of_head hplain.1, hbytes]

end Decimal

end ProofboundRuntime
