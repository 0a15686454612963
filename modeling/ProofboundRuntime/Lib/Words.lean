import Mathlib

/-!
# Lines and words of a text

Functions of `str` over the characters of a text: its lines and words, the text without the
white space around it, and the first or every match of a pattern.  White space is the Unicode
property `White_Space`.
-/

namespace ProofboundRuntime.Words

/-- `char::is_whitespace`. -/
def isWhitespace (c : Char) : Bool :=
  (0x9 ≤ c.toNat && c.toNat ≤ 0xd) || (0x2000 ≤ c.toNat && c.toNat ≤ 0x200a) ||
    [0x20, 0x85, 0xa0, 0x1680, 0x2028, 0x2029, 0x202f, 0x205f, 0x3000].contains c.toNat

/-- `str::trim`. -/
def trim (text : String) : String :=
  String.ofList ((text.toList.dropWhile isWhitespace).reverse.dropWhile isWhitespace).reverse

/-- `str::split_whitespace`. -/
def words (text : String) : List String :=
  ((text.toList.splitOnP isWhitespace).filter (· ≠ [])).map String.ofList

/-! ### The words of a text -/

/-- The words as lists of characters. -/
def wordChars (chars : List Char) : List (List Char) :=
  (chars.splitOnP isWhitespace).filter (· ≠ [])

def Blank (chars : List Char) : Prop := ∀ c ∈ chars, isWhitespace c = true

def IsWord (chars : List Char) : Prop := chars ≠ [] ∧ ∀ c ∈ chars, isWhitespace c = false

/-- White space, or nothing, comes first. -/
def EndsWord (chars : List Char) : Prop := ∀ c ∈ chars.head?, isWhitespace c = true

theorem wordChars_cons {c : Char} (hc : isWhitespace c = true) (rest : List Char) :
    wordChars (c :: rest) = wordChars rest := by
  rw [wordChars, List.splitOnP_cons_eq_if_modifyHead, if_pos hc]
  rfl

theorem wordChars_blank_append {before : List Char} (hbefore : Blank before)
    (rest : List Char) : wordChars (before ++ rest) = wordChars rest := by
  induction before with
  | nil => rfl
  | cons c before ih =>
    have hblank := List.forall_mem_cons.mp hbefore
    rw [List.cons_append, wordChars_cons hblank.1, ih hblank.2]

theorem wordChars_word_append {word rest : List Char} (hword : IsWord word)
    (hrest : EndsWord rest) : wordChars (word ++ rest) = word :: wordChars rest := by
  cases rest with
  | nil =>
    rw [List.append_nil, wordChars, List.splitOnP_eq_singleton hword.2]
    simp [hword.1, wordChars]
  | cons c rest =>
    have hc : isWhitespace c = true := hrest c rfl
    rw [wordChars_cons hc, wordChars,
      List.splitOnP_append_cons_of_forall_mem hword.2 c hc, List.filter_cons, if_pos]
    · rfl
    · simpa using hword.1

/-- A text is blank, or starts with its first word after white space. -/
theorem blank_or_word (chars : List Char) :
    Blank chars ∨ ∃ before word rest, chars = before ++ (word ++ rest) ∧ Blank before ∧
      IsWord word ∧ EndsWord rest := by
  have hsplit : chars.takeWhile isWhitespace ++ chars.dropWhile isWhitespace = chars :=
    List.takeWhile_append_dropWhile
  cases htext : chars.dropWhile isWhitespace with
  | nil => exact .inl (List.dropWhile_eq_nil_iff.mp htext)
  | cons c text =>
    rw [htext] at hsplit
    have hc : isWhitespace c = false := by
      have hhead := List.head?_dropWhile_not isWhitespace chars
      rw [htext] at hhead
      simpa using hhead
    refine .inr ⟨chars.takeWhile isWhitespace, (c :: text).takeWhile fun c => !isWhitespace c,
      (c :: text).dropWhile fun c => !isWhitespace c, ?_, ?_, ⟨?_, ?_⟩, ?_⟩
    · rw [List.takeWhile_append_dropWhile, hsplit]
    · exact fun d hd => List.mem_takeWhile_imp hd
    · rw [List.takeWhile_cons_of_pos (by simpa using hc)]
      exact List.cons_ne_nil _ _
    · intro d hd
      simpa using List.mem_takeWhile_imp hd
    · intro d hd
      have hhead := List.head?_dropWhile_not (fun c => !isWhitespace c) (c :: text)
      rw [Option.mem_def.mp hd] at hhead
      simpa using hhead

theorem wordChars_eq_nil {chars : List Char} : wordChars chars = [] ↔ Blank chars := by
  constructor
  · intro h
    rcases blank_or_word chars with hblank | ⟨before, word, rest, rfl, hbefore, hword, hrest⟩
    · exact hblank
    · simp [wordChars_blank_append hbefore, wordChars_word_append hword hrest] at h
  · intro h
    have hnone := wordChars_blank_append h []
    rwa [List.append_nil] at hnone

theorem wordChars_eq_cons {chars word : List Char} {words : List (List Char)} :
    wordChars chars = word :: words ↔ ∃ before rest, chars = before ++ (word ++ rest) ∧
      Blank before ∧ IsWord word ∧ EndsWord rest ∧ wordChars rest = words := by
  constructor
  · intro h
    rcases blank_or_word chars with hblank | ⟨before, word, rest, rfl, hbefore, hword, hrest⟩
    · simp [wordChars_eq_nil.mpr hblank] at h
    · rw [wordChars_blank_append hbefore, wordChars_word_append hword hrest] at h
      obtain ⟨rfl, rfl⟩ := List.cons_eq_cons.mp h
      exact ⟨before, rest, rfl, hbefore, hword, hrest, rfl⟩
  · rintro ⟨before, rest, rfl, hbefore, hword, hrest, rfl⟩
    rw [wordChars_blank_append hbefore, wordChars_word_append hword hrest]

/-- Two words with white space between them. -/
def IsPair (text first second : String) : Prop :=
  ∃ before gap after, text.toList = before ++ first.toList ++ gap ++ second.toList ++ after ∧
    Blank before ∧ Blank gap ∧ Blank after ∧ gap ≠ [] ∧
    IsWord first.toList ∧ IsWord second.toList

theorem words_eq_map (text : String) : words text = (wordChars text.toList).map String.ofList :=
  rfl

theorem words_eq_pair {text first second : String} :
    words text = [first, second] ↔ IsPair text first second := by
  have hchars : words text = [first, second] ↔
      wordChars text.toList = [first.toList, second.toList] := by
    have hinjective : Function.Injective String.ofList := fun _ _ => String.ofList_injective
    rw [← (List.map_injective_iff.mpr hinjective).eq_iff, ← words_eq_map, List.map_cons,
      List.map_cons, List.map_nil, String.ofList_toList, String.ofList_toList]
  rw [hchars, wordChars_eq_cons]
  simp only [wordChars_eq_cons, wordChars_eq_nil]
  constructor
  · rintro ⟨before, _, htext, hbefore, hfirst, hends, gap, after, rfl, hgap, hsecond, -, hafter⟩
    refine ⟨before, gap, after, by simpa using htext, hbefore, hgap, hafter, ?_, hfirst, hsecond⟩
    -- a word does not end at the first character of another
    rintro rfl
    obtain ⟨c, rest, hword⟩ := List.exists_cons_of_ne_nil hsecond.1
    rw [hword] at hends hsecond
    have hblank : isWhitespace c = true := hends c rfl
    have hnot := hsecond.2 c List.mem_cons_self
    simp [hblank] at hnot
  · rintro ⟨before, gap, after, htext, hbefore, hgap, hafter, hne, hfirst, hsecond⟩
    refine ⟨before, _, by simpa using htext, hbefore, hfirst, ?_, gap, after, rfl, hgap, hsecond,
      ?_, hafter⟩
    · intro c hc
      rw [List.head?_append_of_ne_nil _ hne] at hc
      exact hgap c (List.mem_of_mem_head? hc)
    · exact fun c hc => hafter c (List.mem_of_mem_head? hc)

/-- A carriage return before the end of a line belongs to the end. -/
def stripReturn (line : List Char) : List Char :=
  if line.getLast? = some '\r' then line.dropLast else line

/-- `str::lines`.  Nothing after the last line feed is no line. -/
def lines (text : String) : List String :=
  let parts := text.toList.splitOn '\n'
  let last := parts.getLast?.getD []
  (parts.dropLast.map stripReturn ++ (if last = [] then [] else [last])).map String.ofList

/-- The characters with every match of the pattern replaced, from the left; `skip` characters
belong to a match. -/
def replaceFrom (pattern by' : List Char) : (skip : Nat) → List Char → List Char
  | _, [] => []
  | skip + 1, _ :: rest => replaceFrom pattern by' skip rest
  | 0, c :: rest =>
    if pattern <+: c :: rest then by' ++ replaceFrom pattern by' (pattern.length - 1) rest
    else c :: replaceFrom pattern by' 0 rest

/-- `str::replace` of a pattern that is not empty. -/
def replace (text pattern by' : String) : String :=
  String.ofList (replaceFrom pattern.toList by'.toList 0 text.toList)

/-- The characters before and after the first match of the pattern. -/
def splitAtMatch (pattern : List Char) : List Char → Option (List Char × List Char)
  | [] => if pattern = [] then some ([], []) else none
  | c :: rest =>
    if pattern <+: c :: rest then some ([], (c :: rest).drop pattern.length)
    else (splitAtMatch pattern rest).map fun parts => (c :: parts.1, parts.2)

/-- `str::split_once`. -/
def splitOnce (text pattern : String) : Option (String × String) :=
  (splitAtMatch pattern.toList text.toList).map fun parts =>
    (String.ofList parts.1, String.ofList parts.2)

/-- `str::contains` of a text. -/
def containsText (text pattern : String) : Bool := (splitOnce text pattern).isSome

/-- `str::split_ascii_whitespace`. -/
def asciiWords (text : String) : List String :=
  ((text.toList.splitOnP fun c => [' ', '\t', '\n', '\x0c', '\r'].contains c).filter
    (· ≠ [])).map String.ofList

end ProofboundRuntime.Words
