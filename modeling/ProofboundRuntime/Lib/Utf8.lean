import Mathlib

/-!
# UTF-8

Text is a Lean `String`; `bytes` is its UTF-8 encoding and `fromUtf8` the
validating decoder.  The decoder is structural in the number of bytes left,
so it evaluates in the kernel, and it inverts the encoding exactly
(`fromUtf8_eq_some`).  The order on text is the order of its bytes.
-/

namespace ProofboundRuntime.Utf8

/-- The UTF-8 bytes of a text. -/
def bytes (s : String) : List UInt8 := s.toByteArray.data.toList

/-- The characters that `input` spells, if it is well formed; `fuel` bounds
the number of characters. -/
def decodeChars : (fuel : Nat) → (input : List UInt8) → Option (List Char)
  | _, [] => some []
  | 0, _ :: _ => none
  | fuel + 1, b :: input =>
    -- No character has more than four bytes.
    match ((b :: input).take 4).toByteArray.utf8DecodeChar? 0 with
    | none => none
    | some c => (decodeChars fuel ((b :: input).drop c.utf8Size)).map (c :: ·)

/-- The text that `input` is the UTF-8 encoding of. -/
def fromUtf8 (input : List UInt8) : Option String :=
  (decodeChars input.length input).map String.ofList

/-- Text is compared by its bytes. -/
def cmp (s t : String) : Ordering := compare (bytes s) (bytes t)

/-! ## The encoding -/

theorem bytes_inj {s t : String} : bytes s = bytes t ↔ s = t := by
  constructor
  · intro h
    apply String.toByteArray_inj.mp
    apply ByteArray.ext
    exact Array.toList_inj.mp h
  · rintro rfl
    rfl

theorem bytes_injective : Function.Injective bytes :=
  fun _ _ => bytes_inj.mp

@[simp] theorem bytes_append (s t : String) : bytes (s ++ t) = bytes s ++ bytes t := by
  simp [bytes, String.toByteArray_append]

@[simp] theorem bytes_ofList (chars : List Char) :
    bytes (String.ofList chars) = chars.flatMap String.utf8EncodeChar := by
  simp [bytes, List.utf8Encode]

theorem exists_ofList (s : String) : ∃ chars, s = String.ofList chars :=
  ⟨s.toList, by simp⟩

/-! ## The decoder -/

/-- The four-byte window of the decoder loses nothing. -/
theorem utf8DecodeChar?_take_eq_some {input : List UInt8} {c : Char} :
    (input.take 4).toByteArray.utf8DecodeChar? 0 = some c ↔
      ∃ rest, input = String.utf8EncodeChar c ++ rest := by
  have hsize : (String.utf8EncodeChar c).length ≤ 4 := by
    rw [String.length_utf8EncodeChar]
    exact c.utf8Size_le_four
  constructor
  · intro h
    obtain ⟨rest, hrest⟩ := ByteArray.exists_of_utf8DecodeChar?_eq_some h
    have htake : input.take 4 = String.utf8EncodeChar c ++ rest.data.toList := by
      have := congrArg (fun b : ByteArray => b.data.toList) hrest
      simpa using this
    refine ⟨rest.data.toList ++ input.drop 4, ?_⟩
    rw [← List.append_assoc, ← htake, List.take_append_drop]
  · rintro ⟨rest, rfl⟩
    rw [List.take_append, List.take_of_length_le hsize, List.toByteArray_append]
    exact ByteArray.utf8DecodeChar?_utf8EncodeChar_append

theorem decodeChars_eq_some {fuel : Nat} {input : List UInt8} {chars : List Char}
    (hfuel : input.length ≤ fuel) :
    decodeChars fuel input = some chars ↔
      chars.flatMap String.utf8EncodeChar = input := by
  induction fuel generalizing input chars with
  | zero =>
    have hnil : input = [] := List.length_eq_zero_iff.mp (by omega)
    subst hnil
    cases chars <;> simp [decodeChars, String.utf8EncodeChar_ne_nil]
  | succ fuel ih =>
    cases input with
    | nil => cases chars <;> simp [decodeChars, String.utf8EncodeChar_ne_nil]
    | cons b input =>
      have hpos (c : Char) : 0 < c.utf8Size := c.utf8Size_pos
      rw [decodeChars]
      split
      next hnone =>
        constructor
        · rintro ⟨⟩
        · intro h
          cases chars with
          | nil => simp at h
          | cons c chars =>
            have hsome := utf8DecodeChar?_take_eq_some.mpr ⟨_, h.symm⟩
            rw [hnone] at hsome
            cases hsome
      next c hsome =>
        obtain ⟨rest, hrest⟩ := utf8DecodeChar?_take_eq_some.mp hsome
        have hdrop : (b :: input).drop c.utf8Size = rest := by
          rw [hrest, ← String.length_utf8EncodeChar, List.drop_left]
        have hlength : rest.length ≤ fuel := by
          have hsum := congrArg List.length hrest
          have := hpos c
          simp only [List.length_append, String.length_utf8EncodeChar, List.length_cons] at hsum hfuel
          omega
        rw [hdrop, Option.map_eq_some_iff]
        constructor
        · rintro ⟨chars, hchars, rfl⟩
          rw [List.flatMap_cons, (ih hlength).mp hchars, hrest]
        · intro h
          cases chars with
          | nil => simp at h
          | cons c' chars =>
            -- The first character is the decoder's, since the window decides it.
            have hsome' := utf8DecodeChar?_take_eq_some.mpr ⟨_, h.symm⟩
            rw [hsome] at hsome'
            cases hsome'
            rw [List.flatMap_cons, hrest, List.append_cancel_left_eq] at h
            exact ⟨chars, (ih hlength).mpr h, rfl⟩

/-- The decoder inverts the encoding: it accepts exactly the encodings. -/
theorem fromUtf8_eq_some {input : List UInt8} {s : String} :
    fromUtf8 input = some s ↔ bytes s = input := by
  rw [fromUtf8, Option.map_eq_some_iff]
  constructor
  · rintro ⟨chars, hchars, rfl⟩
    rw [bytes_ofList, (decodeChars_eq_some le_rfl).mp hchars]
  · intro h
    obtain ⟨chars, rfl⟩ := exists_ofList s
    rw [bytes_ofList] at h
    exact ⟨chars, (decodeChars_eq_some le_rfl).mpr h, rfl⟩

@[simp] theorem fromUtf8_bytes (s : String) : fromUtf8 (bytes s) = some s :=
  fromUtf8_eq_some.mpr rfl

/-! ## The order on text -/

instance : Std.TransCmp cmp :=
  inferInstanceAs (Std.TransCmp (compareOn bytes))

instance : Std.LawfulEqCmp cmp where
  compare_self := by simp [cmp]
  eq_of_compare h := bytes_injective (Std.LawfulEqOrd.eq_of_compare h)

end ProofboundRuntime.Utf8
