import ProofboundRuntime.Lib.Path

/-!
# The lexical normal form of an absolute path

The components of a path say less than its text: repeated and trailing separators and
inner `.` parts are gone.  `normalForm` writes an absolute path out again from its
components, with `..` resolved by the text alone, and `isNormal` is the check of a text
part by part.  The texts that pass the check are those that are their own normal form
(`isNormal_iff`).
-/

namespace ProofboundRuntime.Path

/-- The names after one more component. -/
def lexicalStep (names : List (List UInt8)) : Component → List (List UInt8)
  | .rootDir => names
  | .curDir => names
  | .parentDir => names.dropLast
  | .normal name => names ++ [name]

/-- The names that the components lead through. -/
def lexicalNames (components : List Component) : List (List UInt8) :=
  components.foldl lexicalStep []

/-- The text of the absolute path with these components. -/
def normalForm (path : List UInt8) : List UInt8 :=
  separator :: [separator].intercalate (lexicalNames (components path))

/-- A part that is a name. -/
def isNamePart (part : List UInt8) : Bool := part != [] && part != dot && part != dotDot

/-- The root, or names after a leading separator, one separator between two. -/
def isNormal (path : List UInt8) : Bool :=
  isAbsolute path &&
    (path == [separator] || (path.tail.splitOn separator).all isNamePart)

theorem component_of_isNamePart {part : List UInt8} (h : isNamePart part = true) :
    component part = some (.normal part) := by
  simp only [isNamePart, Bool.and_eq_true, bne_iff_ne] at h
  obtain ⟨⟨hnil, hdot⟩, hdotDot⟩ := h
  rw [component, if_neg (not_or.mpr ⟨hnil, hdot⟩), if_neg hdotDot]

theorem isNamePart_of_component {part name : List UInt8}
    (h : component part = some (.normal name)) : name = part ∧ isNamePart part = true := by
  rw [component] at h
  split at h
  next => cases h
  next hpart =>
    split at h
    next => cases h
    next hdotDot =>
      cases h
      rw [not_or] at hpart
      simp [isNamePart, hpart.1, hpart.2, hdotDot]

/-- Parts are what is between separators. -/
theorem separator_notMem_of_mem_splitOn {path part : List UInt8}
    (h : part ∈ path.splitOn separator) : separator ∉ part := by
  induction path generalizing part with
  | nil =>
    rw [List.splitOn_nil, List.mem_singleton] at h
    rw [h]
    exact List.not_mem_nil
  | cons b path ih =>
    rw [List.splitOn_cons_eq_if_modifyHead] at h
    split at h
    next =>
      rcases List.mem_cons.mp h with rfl | h
      · exact List.not_mem_nil
      · exact ih h
    next hb =>
      obtain ⟨first, others, hsplit⟩ := List.exists_cons_of_ne_nil (List.splitOn_ne_nil separator path)
      rw [hsplit, List.modifyHead_cons, List.mem_cons] at h
      rcases h with rfl | h
      · rw [List.mem_cons, not_or]
        refine ⟨fun heq => hb (beq_iff_eq.mpr heq.symm), ih ?_⟩
        rw [hsplit]
        exact List.mem_cons_self
      · exact ih (by rw [hsplit]; exact List.mem_cons_of_mem _ h)

/-- A name of a normal form: a name part without a separator. -/
theorem of_mem_lexicalNames {path name : List UInt8}
    (h : name ∈ lexicalNames (components path)) :
    isNamePart name = true ∧ separator ∉ name := by
  -- Each step keeps this of the names so far.
  have hstep : ∀ (cs : List Component) (names : List (List UInt8)),
      (∀ part, Component.normal part ∈ cs → isNamePart part = true ∧ separator ∉ part) →
      (∀ part ∈ names, isNamePart part = true ∧ separator ∉ part) →
        ∀ part ∈ cs.foldl lexicalStep names, isNamePart part = true ∧ separator ∉ part := by
    intro cs
    induction cs with
    | nil => exact fun names _ hnames => hnames
    | cons c cs ih =>
      intro names hcs hnames
      refine ih _ (fun part hpart => hcs part (List.mem_cons_of_mem _ hpart)) ?_
      intro part hpart
      cases c with
      | rootDir => exact hnames part hpart
      | curDir => exact hnames part hpart
      | parentDir => exact hnames part (List.dropLast_subset names hpart)
      | normal name =>
        rcases List.mem_append.mp hpart with hpart | hpart
        · exact hnames part hpart
        · rw [List.mem_singleton.mp hpart]
          exact hcs name List.mem_cons_self
  refine hstep (components path) [] ?_ (List.forall_mem_nil _) name h
  intro part hpart
  rw [components, List.mem_append] at hpart
  rcases hpart with hfirst | hpart
  · split at hfirst
    · cases List.mem_singleton.mp hfirst
    · split at hfirst
      · cases List.mem_singleton.mp hfirst
      · cases hfirst
  · obtain ⟨piece, hpiece, hcomponent⟩ := List.mem_filterMap.mp hpart
    obtain ⟨rfl, hname⟩ := isNamePart_of_component hcomponent
    exact ⟨hname, separator_notMem_of_mem_splitOn hpiece⟩

theorem foldl_lexicalStep_normal (names parts : List (List UInt8)) :
    (parts.map Component.normal).foldl lexicalStep names = names ++ parts := by
  induction parts generalizing names with
  | nil => rw [List.map_nil, List.foldl_nil, List.append_nil]
  | cons part parts ih =>
    rw [List.map_cons, List.foldl_cons, ih, lexicalStep, List.append_assoc, List.singleton_append]

/-- The components of an absolute path of names. -/
theorem lexicalNames_of_parts {rest : List UInt8}
    (h : ∀ part ∈ rest.splitOn separator, isNamePart part = true) :
    lexicalNames (components (separator :: rest)) = rest.splitOn separator := by
  have hsplit : (separator :: rest).splitOn separator = [] :: rest.splitOn separator := by
    rw [List.splitOn_cons_eq_if_modifyHead, if_pos (beq_self_eq_true separator)]
  have hcomponents : (rest.splitOn separator).filterMap component =
      (rest.splitOn separator).map .normal := by
    rw [← List.filterMap_eq_map]
    exact List.filterMap_congr fun part hpart => component_of_isNamePart (h part hpart)
  have habsolute : isAbsolute (separator :: rest) = true := rfl
  have hnone : component [] = none := rfl
  rw [lexicalNames, components]
  simp only [hsplit, habsolute, if_true, List.filterMap_cons, hnone, hcomponents]
  exact foldl_lexicalStep_normal [] _

/-- The check of the text finds the paths that are their own normal form. -/
theorem isNormal_iff {path : List UInt8} :
    isNormal path = true ↔ isAbsolute path = true ∧ normalForm path = path := by
  cases path with
  | nil => exact iff_of_false (by decide) (by decide)
  | cons b rest =>
    by_cases hb : b = separator
    · subst hb
      have habsolute : isAbsolute (separator :: rest) = true := rfl
      rw [isNormal, habsolute, Bool.true_and, and_iff_right rfl, Bool.or_eq_true, beq_iff_eq,
        List.all_eq_true, List.tail_cons, normalForm, List.cons.injEq, and_iff_right rfl,
        List.cons.injEq, and_iff_right rfl]
      constructor
      · intro h
        rcases h with rfl | h
        · rfl
        · rw [lexicalNames_of_parts h]
          exact List.intercalate_splitOn separator
      · intro h
        by_cases hnil : lexicalNames (components (separator :: rest)) = []
        · rw [hnil] at h
          exact .inl h.symm
        · refine .inr fun part hpart => ?_
          rw [← h, List.splitOn_intercalate separator
            (fun name hname => (of_mem_lexicalNames hname).2) hnil] at hpart
          exact (of_mem_lexicalNames hpart).1
    · have hrelative : isAbsolute (b :: rest) = false := by
        rw [isAbsolute, List.head?_cons]
        exact beq_false_of_ne fun heq => hb (Option.some.inj heq)
      rw [isNormal, hrelative]
      exact iff_of_false (by simp) (by simp)

end ProofboundRuntime.Path
