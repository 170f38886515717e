import LogicSignature.Proofs.DeclaredSettings

/-
The paths of the settings.

A path that names a method and later returns to its owner is back where it was, so such a detour may
stand anywhere in a path. A path leads to a setting exactly if it names the section and the setting
and has nothing besides but detours. Without the name of the return there are no detours, and the
setting has one path only.
-/

namespace LogicSignature

/-- Splitting a text and joining the parts gives the text back. -/
theorem Text.join_splitOn (separator : CodePoint) (text : Text) :
    Text.join [separator] (Text.splitOn separator text) = text := by
  induction text with
  | nil => rfl
  | cons point rest ih =>
      rw [Text.splitOn]
      cases hParts : Text.splitOn separator rest with
      | nil =>
          rw [hParts] at ih
          subst ih
          cases hParts
      | cons first others =>
          rw [hParts] at ih
          by_cases hSame : point = separator
          · rw [hSame, if_pos (beq_self_eq_true separator), ← ih]
            rfl
          · rw [if_neg (by simpa using hSame), ← ih]
            cases others <;> rfl

namespace Settings

/-! ### Detours -/

/-- Names that lead from a target back to it: a method, a detour from there, the return to the owner
of the method, and so on. -/
inductive Detour : Target → List Text → Prop
  | none (target : Target) : Detour target []
  | through {target : Target} {name : Text} {inside rest : List Text}
      (hName : name ∈ target.methods) (hInside : Detour (.method target) inside)
      (hRest : Detour target rest) : Detour target (name :: (inside ++ ownerName :: rest))

/-- A path that leads to a section: its name, and detours. -/
def Section.IsAt (group : Section) (path : Text) : Prop :=
  ∃ before behind, Detour .whole before ∧ Detour (.group group) behind ∧
    Text.splitOn '.' path = before ++ group.name :: behind

/-- A path that leads to a setting: the names of its section and its own, and detours. -/
def Leaf.IsAt (leaf : Leaf) (path : Text) : Prop :=
  ∃ before between behind, Detour .whole before ∧ Detour (.group leaf.group) between ∧
    Detour (.leaf leaf) behind ∧
    Text.splitOn '.' path = before ++ leaf.group.name :: (between ++ leaf.name :: behind)

theorem Detour.eq_nil {target : Target} {names : List Text} (hDetour : Detour target names)
    (hNames : ownerName ∉ names) : names = [] := by
  cases hDetour with
  | none => rfl
  | through hName hInside hRest => exact absurd (by simp) hNames

section

variable {settings : Settings}

theorem step?_of_mem_methods {target : Target} {name : Text} (hName : name ∈ target.methods) :
    settings.step? target name = some (.method target) := by
  rw [step?, if_pos (List.contains_iff_mem.mpr hName)]

theorem step?_self (owner : Target) : settings.step? (.method owner) ownerName = some owner := rfl

theorem step?_group (group : Section) : settings.step? .whole group.name = some (.group group) := by
  cases group <;> rfl

theorem step?_leaf (leaf : Leaf) :
    settings.step? (.group leaf.group) leaf.name = some (.leaf leaf) := by
  cases leaf <;> rfl

theorem walk?_cons {target next : Target} {name : Text}
    (hStep : settings.step? target name = some next) (rest : List Text) :
    settings.walk? target (name :: rest) = settings.walk? next rest := by
  rw [walk?, hStep, Option.bind_some]

/-- Behind a detour a path goes on as if there were none. -/
theorem walk?_detour {target : Target} {names : List Text} (hDetour : Detour target names)
    (rest : List Text) : settings.walk? target (names ++ rest) = settings.walk? target rest := by
  induction hDetour generalizing rest with
  | none => rfl
  | through hName _ _ ihInside ihRest =>
      rw [List.cons_append, walk?_cons (step?_of_mem_methods hName), List.append_assoc, ihInside,
        List.cons_append, walk?_cons (step?_self _), ihRest]

theorem walk?_of_detour {target : Target} {names : List Text} (hDetour : Detour target names) :
    settings.walk? target names = some target := by
  rw [← List.append_nil names, walk?_detour hDetour, walk?]

/-! ### Inversion -/

/-- A name is that of a method, or leads on. -/
theorem step?_eq_some {target next : Target} {name : Text}
    (hStep : settings.step? target name = some next) :
    (name ∈ target.methods ∧ next = .method target) ∨ settings.part? target name = some next := by
  rw [step?] at hStep
  split at hStep
  · rename_i hName
    cases hStep
    exact .inl ⟨List.contains_iff_mem.mp hName, rfl⟩
  · exact .inr hStep

theorem part?_method_eq_some {owner next : Target} {name : Text}
    (hPart : settings.part? (.method owner) name = some next) :
    name = ownerName ∧ next = owner := by
  rw [part?] at hPart
  split at hPart
  · rename_i hName
    cases hPart
    exact ⟨eq_of_beq hName, rfl⟩
  · cases hPart

/-- A walk from a method to a setting returns to the owner of the method. -/
theorem exists_return {leaf : Leaf} {owner : Target} {names : List Text}
    (hWalk : settings.walk? (.method owner) names = some (.leaf leaf)) :
    ∃ inside rest, Detour (.method owner) inside ∧ names = inside ++ ownerName :: rest ∧
      settings.walk? owner rest = some (.leaf leaf) := by
  induction hLength : names.length using Nat.strongRecOn generalizing owner names with
  | ind length ih =>
      cases names with
      | nil => cases hWalk
      | cons name tail =>
          obtain ⟨next, hStep, hTail⟩ := Option.bind_eq_some_iff.mp hWalk
          rw [List.length_cons] at hLength
          rcases step?_eq_some hStep with ⟨hName, rfl⟩ | hPart
          · -- A method of the method: it is returned from first, and then the method itself.
            obtain ⟨inside, rest, hInside, rfl, hRest⟩ := ih tail.length (by omega) hTail rfl
            have hShorter : rest.length < length := by
              rw [List.length_append, List.length_cons] at hLength
              omega
            obtain ⟨others, behind, hOthers, rfl, hBehind⟩ := ih rest.length hShorter hRest rfl
            exact ⟨name :: (inside ++ ownerName :: others), behind,
              .through hName hInside hOthers, by simp, hBehind⟩
          · obtain ⟨rfl, rfl⟩ := part?_method_eq_some hPart
            exact ⟨[], tail, .none _, rfl, hTail⟩

/-- A walk to a setting makes a detour, and then ends or leads on. -/
theorem exists_detour {leaf : Leaf} {target : Target} {names : List Text}
    (hWalk : settings.walk? target names = some (.leaf leaf)) :
    ∃ before behind, Detour target before ∧ names = before ++ behind ∧
      ((behind = [] ∧ target = .leaf leaf) ∨
        ∃ name rest next, behind = name :: rest ∧ settings.part? target name = some next ∧
          settings.walk? next rest = some (.leaf leaf)) := by
  induction hLength : names.length using Nat.strongRecOn generalizing names with
  | ind length ih =>
      cases names with
      | nil =>
          cases hWalk
          exact ⟨[], [], .none _, rfl, .inl ⟨rfl, rfl⟩⟩
      | cons name tail =>
          obtain ⟨next, hStep, hTail⟩ := Option.bind_eq_some_iff.mp hWalk
          rcases step?_eq_some hStep with ⟨hName, rfl⟩ | hPart
          · obtain ⟨inside, rest, hInside, rfl, hRest⟩ := exists_return hTail
            have hShorter : rest.length < length := by
              rw [List.length_cons, List.length_append, List.length_cons] at hLength
              omega
            obtain ⟨before, behind, hBefore, rfl, hBehind⟩ := ih _ hShorter hRest rfl
            exact ⟨name :: (inside ++ ownerName :: before), behind, .through hName hInside hBefore,
              by simp, hBehind⟩
          · exact ⟨[], name :: tail, .none _, rfl, .inr ⟨name, tail, next, rfl, hPart, hTail⟩⟩

/-- A target beside the settings: from there no path leads to a setting. -/
def Target.isAside : Target → Bool
  | .property _ => true
  | .form _ => true
  | _ => false

theorem isAside_of_common? {summary firstField name : Text} {target : Target}
    (hCommon : common? summary firstField name = some target) : target.isAside = true := by
  unfold common? at hCommon
  split at hCommon
  · cases hCommon
    rfl
  · split at hCommon
    · cases hCommon
      rfl
    · split at hCommon
      · cases hCommon
        rfl
      · cases hCommon

theorem walk?_aside_ne_leaf {target : Target} (hAside : target.isAside = true)
    (names : List Text) (leaf : Leaf) : settings.walk? target names ≠ some (.leaf leaf) := by
  intro hWalk
  cases target with
  | property content => cases names <;> cases hWalk
  | form field => cases names <;> cases hWalk
  | _ => cases hAside

theorem isAside_of_part?_leaf {leaf : Leaf} {name : Text} {target : Target}
    (hPart : settings.part? (.leaf leaf) name = some target) : target.isAside = true := by
  rw [part?, Option.orElse_eq_orElse, Option.orElse_eq_or, Option.or_eq_some_iff] at hPart
  obtain hOwn | ⟨_, hCommon⟩ := hPart
  · obtain ⟨content, _, rfl⟩ := Option.map_eq_some_iff.mp hOwn
    rfl
  · exact isAside_of_common? hCommon

theorem part?_group_eq_some {group : Section} {name : Text} {target : Target}
    (hPart : settings.part? (.group group) name = some target) :
    (∃ leaf, group.leaf? name = some leaf ∧ target = .leaf leaf) ∨ target.isAside = true := by
  rw [part?, Option.orElse_eq_orElse, Option.orElse_eq_or, Option.or_eq_some_iff] at hPart
  obtain hOwn | ⟨_, hCommon⟩ := hPart
  · obtain ⟨leaf, hLeaf, hTarget⟩ := Option.map_eq_some_iff.mp hOwn
    exact .inl ⟨leaf, hLeaf, hTarget.symm⟩
  · exact .inr (isAside_of_common? hCommon)

theorem part?_whole_eq_some {name : Text} {target : Target}
    (hPart : settings.part? .whole name = some target) :
    (∃ group, Section.ofName? name = some group ∧ target = .group group) ∨
      target.isAside = true := by
  rw [part?, Option.orElse_eq_orElse, Option.orElse_eq_or, Option.or_eq_some_iff] at hPart
  obtain hOwn | ⟨_, hCommon⟩ := hPart
  · obtain ⟨group, hGroup, hTarget⟩ := Option.map_eq_some_iff.mp hOwn
    exact .inl ⟨group, hGroup, hTarget.symm⟩
  · exact .inr (isAside_of_common? hCommon)

theorem name_of_ofName? {name : Text} {group : Section}
    (hGroup : Section.ofName? name = some group) : name = group.name := by
  have hName : group.name = name := by simpa using List.find?_some hGroup
  exact hName.symm

theorem mem_leaves_iff (group : Section) (leaf : Leaf) :
    leaf ∈ group.leaves ↔ leaf.group = group := by
  cases group <;> cases leaf <;> decide

theorem name_of_leaf? {group : Section} {name : Text} {leaf : Leaf}
    (hLeaf : group.leaf? name = some leaf) : name = leaf.name ∧ leaf.group = group := by
  have hName : leaf.name = name := by simpa using List.find?_some hLeaf
  exact ⟨hName.symm, (mem_leaves_iff group leaf).mp (List.mem_of_find?_eq_some hLeaf)⟩

theorem walk?_leaf_eq_some {start leaf : Leaf} {names : List Text}
    (hWalk : settings.walk? (.leaf start) names = some (.leaf leaf)) :
    Detour (.leaf leaf) names ∧ start = leaf := by
  obtain ⟨before, behind, hBefore, rfl, ⟨rfl, hSame⟩ | ⟨name, rest, next, rfl, hPart, hRest⟩⟩ :=
    exists_detour hWalk
  · cases hSame
    rw [List.append_nil]
    exact ⟨hBefore, rfl⟩
  · exact absurd hRest (walk?_aside_ne_leaf (isAside_of_part?_leaf hPart) rest leaf)

theorem walk?_group_eq_some {group : Section} {leaf : Leaf} {names : List Text}
    (hWalk : settings.walk? (.group group) names = some (.leaf leaf)) :
    leaf.group = group ∧ ∃ between behind, Detour (.group group) between ∧
      Detour (.leaf leaf) behind ∧ names = between ++ leaf.name :: behind := by
  obtain ⟨before, behind, hBefore, rfl, ⟨rfl, hSame⟩ | ⟨name, rest, next, rfl, hPart, hRest⟩⟩ :=
    exists_detour hWalk
  · cases hSame
  · rcases part?_group_eq_some hPart with ⟨start, hLeaf, rfl⟩ | hAside
    · obtain ⟨hDetour, rfl⟩ := walk?_leaf_eq_some hRest
      obtain ⟨rfl, hGroup⟩ := name_of_leaf? hLeaf
      exact ⟨hGroup, before, rest, hBefore, hDetour, rfl⟩
    · exact absurd hRest (walk?_aside_ne_leaf hAside rest leaf)

end

/-! ### Settings and their paths -/

/-- A path leads to a setting exactly if it names the setting, apart from detours. -/
theorem resolve?_eq_leaf_iff (settings : Settings) (path : Text) (leaf : Leaf) :
    settings.resolve? path = some (.leaf leaf) ↔ leaf.IsAt path := by
  rw [resolve?]
  constructor
  · intro hWalk
    obtain ⟨before, names, hBefore, hNames, ⟨_, hSame⟩ | ⟨name, rest, next, rfl, hPart, hRest⟩⟩ :=
      exists_detour hWalk
    · cases hSame
    · rcases part?_whole_eq_some hPart with ⟨group, hGroup, rfl⟩ | hAside
      · obtain ⟨rfl, between, behind, hBetween, hBehind, rfl⟩ := walk?_group_eq_some hRest
        rw [name_of_ofName? hGroup] at hNames
        exact ⟨before, between, behind, hBefore, hBetween, hBehind, hNames⟩
      · exact absurd hRest (walk?_aside_ne_leaf hAside rest leaf)
  · rintro ⟨before, between, behind, hBefore, hBetween, hBehind, hNames⟩
    rw [hNames, walk?_detour hBefore, walk?_cons (step?_group _), walk?_detour hBetween,
      walk?_cons (step?_leaf _), walk?_of_detour hBehind]

theorem resolve?_of_isAt_section (settings : Settings) {path : Text} {group : Section}
    (hPath : group.IsAt path) : settings.resolve? path = some (.group group) := by
  obtain ⟨before, behind, hBefore, hBehind, hNames⟩ := hPath
  rw [resolve?, hNames, walk?_detour hBefore, walk?_cons (step?_group _), walk?_of_detour hBehind]

theorem isAt_name (group : Section) : group.IsAt group.name :=
  ⟨[], [], .none _, .none _, by cases group <;> rfl⟩

theorem isAt_path (leaf : Leaf) : leaf.IsAt leaf.path :=
  ⟨[], [], [], .none _, .none _, .none _, by cases leaf <;> rfl⟩

theorem Leaf.IsAt.unique {leaf other : Leaf} {path : Text} (hLeaf : leaf.IsAt path)
    (hOther : other.IsAt path) : leaf = other := by
  have hFound := (resolve?_eq_leaf_iff initial path leaf).mpr hLeaf
  rw [(resolve?_eq_leaf_iff initial path other).mpr hOther] at hFound
  cases hFound
  rfl

/-- A path without returns leads to a setting only if it is the path of the setting. -/
theorem isAt_iff_of_no_return {path : Text} (hPath : ownerName ∉ Text.splitOn '.' path)
    (leaf : Leaf) : leaf.IsAt path ↔ path = leaf.path := by
  constructor
  · rintro ⟨before, between, behind, hBefore, hBetween, hBehind, hNames⟩
    rw [hNames] at hPath
    simp only [List.mem_append, List.mem_cons, not_or] at hPath
    rw [hBefore.eq_nil hPath.1, hBetween.eq_nil hPath.2.2.1, hBehind.eq_nil hPath.2.2.2.2] at hNames
    rw [← Text.join_splitOn '.' path, hNames]
    rfl
  · rintro rfl
    exact isAt_path leaf

/-- The setting that a target is. -/
def Target.leaf? : Target → Option Leaf
  | .leaf own => some own
  | _ => none

theorem leaf?_eq_some_iff {target : Target} {leaf : Leaf} :
    target.leaf? = some leaf ↔ target = .leaf leaf := by
  cases target with
  | leaf own => simp [Target.leaf?]
  | _ => simp [Target.leaf?]

instance (leaf : Leaf) (path : Text) : Decidable (leaf.IsAt path) :=
  decidable_of_iff ((initial.resolve? path).bind Target.leaf? = some leaf) (by
    simp only [Option.bind_eq_some_iff, leaf?_eq_some_iff, exists_eq_right, resolve?_eq_leaf_iff])

/-- The setting that a path leads to. -/
def Leaf.ofPath? (path : Text) : Option Leaf :=
  [Leaf.langSpecPath, Leaf.logLevel, Leaf.logFormat].find? fun leaf => leaf.IsAt path

theorem ofPath?_eq_some_iff (path : Text) (leaf : Leaf) :
    Leaf.ofPath? path = some leaf ↔ leaf.IsAt path := by
  constructor
  · intro hLeaf
    simpa using List.find?_some hLeaf
  · intro hLeaf
    cases hFound : Leaf.ofPath? path with
    | none =>
        have hNone := List.find?_eq_none.mp hFound leaf (by cases leaf <;> simp)
        exact absurd (decide_eq_true hLeaf) hNone
    | some found =>
        have hPath : found.IsAt path := by simpa using List.find?_some hFound
        rw [hPath.unique hLeaf]

end Settings

end LogicSignature
