import LogicSignature.Settings.Basic

/-
The settings as they are declared, and the contents stored in them.

Nothing that happens to the settings of a session changes their defaults, variables and checks, so
that all there is to know about them is what each setting stores. A setting shows the text of its
variable if the variable is present, else what is stored, else its default; storing changes one
setting if the content is admitted and none if it is not.
-/

namespace LogicSignature

namespace Settings

namespace Leaf

def group : Leaf → Section
  | .langSpecPath => .langSpec
  | .logLevel => .observability
  | .logFormat => .observability

/-- The dotted path of a setting. -/
def path (leaf : Leaf) : Text := Text.join "." [leaf.group.name, leaf.name]

/-- The name of the variable of a setting. -/
def variableName : Leaf → Text
  | .langSpecPath => "LSIG_LANGSPEC_PATH"
  | .logLevel => "LSIG_LOG_LEVEL"
  | .logFormat => "LSIG_LOG_FORMAT"

def default : Leaf → Content
  | .langSpecPath => .text ""
  | .logLevel => .text "warning"
  | .logFormat => .text "json"

/-- Whether a content may be stored in a setting: a text, and one of the known words where the
setting is about logging. -/
def admits : Leaf → Content → Bool
  | .langSpecPath, .value (.text _) => true
  | .logLevel, .value (.text word) => logLevels.contains word
  | .logFormat, .value (.text word) => logFormats.contains word
  | _, _ => false

end Leaf

def stored (settings : Settings) (leaf : Leaf) : Option Content := (settings.setting leaf).stored

/-- The settings as they are declared, whatever is stored in them. -/
def Declared (settings : Settings) : Prop :=
  ∀ leaf, settings.setting leaf = { initial.setting leaf with stored := settings.stored leaf }

/-- Stores a content without asking whether it is admitted. -/
def write (settings : Settings) (leaf : Leaf) (content : Content) : Settings :=
  settings.replace leaf { settings.setting leaf with stored := some content }

/-- Why a content that a setting does not admit is not stored. -/
def inadmissible (content : Content) : SetFault :=
  match content.shown with
  | .ok shown => .invalid shown
  | .error fault => .unshowable fault

/-! ### Storing -/

theorem setting_replace (settings : Settings) (leaf other : Leaf) (new : Setting) :
    (settings.replace leaf new).setting other =
      if other = leaf then new else settings.setting other := by
  cases leaf <;> cases other <;> rfl

@[simp]
theorem stored_write (settings : Settings) (leaf other : Leaf) (content : Content) :
    (settings.write leaf content).stored other =
      if other = leaf then some content else settings.stored other := by
  rw [stored, write, setting_replace]
  by_cases hSame : other = leaf <;> simp [hSame, stored]

@[simp]
theorem stored_initial (leaf : Leaf) : initial.stored leaf = none := by
  cases leaf <;> rfl

theorem declared_initial : initial.Declared := by
  intro leaf
  cases leaf <;> rfl

theorem Declared.write {settings : Settings} (hDeclared : settings.Declared) (leaf : Leaf)
    (content : Content) : (settings.write leaf content).Declared := by
  intro other
  by_cases hSame : other = leaf
  · subst hSame
    rw [stored_write, if_pos rfl, Settings.write, setting_replace, if_pos rfl, hDeclared other]
  · rw [stored_write, if_neg hSame, Settings.write, setting_replace, if_neg hSame]
    exact hDeclared other

/-- A text passes a check of texts; what is no text does not, and its kind does not matter. -/
theorem passes_of_check (leaf : Leaf) (content : Content) :
    ∃ check, (initial.setting leaf).check = some check ∧
      check.passes content = .ok (leaf.admits content) := by
  cases leaf with
  | langSpecPath =>
      refine ⟨.isText, rfl, ?_⟩
      rcases content with value | datum | fields
      · cases value <;> rfl
      · rfl
      · rfl
  | logLevel =>
      refine ⟨.oneOf logLevels, rfl, ?_⟩
      rcases content with value | datum | fields
      · cases value <;> rfl
      · rfl
      · rfl
  | logFormat =>
      refine ⟨.oneOf logFormats, rfl, ?_⟩
      rcases content with value | datum | fields
      · cases value <;> rfl
      · rfl
      · rfl

theorem storable_of_admits {leaf : Leaf} {content : Content}
    (hAdmits : leaf.admits content = true) : storable content = some content := by
  rcases content with value | datum | fields
  · cases value with
    | text word => rfl
    | null => cases leaf <;> cases hAdmits
    | _ => rfl
  · rfl
  · rfl

theorem set_of_admits {settings : Settings} (hDeclared : settings.Declared) {leaf : Leaf}
    {content : Content} (hAdmits : leaf.admits content = true) :
    settings.set leaf content = .ok (settings.write leaf content) := by
  obtain ⟨check, hCheck, hPasses⟩ := passes_of_check leaf content
  have hDeclaredCheck : (settings.setting leaf).check = some check := by
    rw [hDeclared leaf]
    exact hCheck
  rw [set, Setting.set, hDeclaredCheck]
  simp only [hPasses, hAdmits, storable_of_admits hAdmits]
  rw [← hDeclaredCheck, write]

theorem set_of_not_admits {settings : Settings} (hDeclared : settings.Declared) {leaf : Leaf}
    {content : Content} (hAdmits : leaf.admits content = false) :
    settings.set leaf content = .error (inadmissible content) := by
  obtain ⟨check, hCheck, hPasses⟩ := passes_of_check leaf content
  have hDeclaredCheck : (settings.setting leaf).check = some check := by
    rw [hDeclared leaf]
    exact hCheck
  rw [set, Setting.set, hDeclaredCheck, inadmissible]
  simp only [hPasses, hAdmits]
  cases content.shown <;> rfl

/-! ### Reading -/

theorem find_variableName (environment : Environment) (leaf : Leaf) :
    environment.find leaf.variableName = .ok (environment.lookup leaf.variableName) := by
  have hCanonical : Environment.canonical leaf.variableName = .ok leaf.variableName := by
    cases leaf <;> rfl
  rw [Environment.find, hCanonical]

/-- What a setting shows: the text of its variable, else what is stored, else its default. -/
def shownContent (environment : Environment) (stored : Option Content) (leaf : Leaf) : Content :=
  match environment.lookup leaf.variableName with
  | some text => .text text
  | none => stored.getD leaf.default

theorem get_of_declared {settings : Settings} (hDeclared : settings.Declared)
    (environment : Environment) (leaf : Leaf) :
    settings.get environment leaf =
      .ok (shownContent environment (settings.stored leaf) leaf) := by
  have hVariable : (settings.setting leaf).variableName = some leaf.variableName := by
    rw [hDeclared leaf]
    cases leaf <;> rfl
  have hNamed : leaf.variableName.isEmpty = false := by
    cases leaf <;> rfl
  have hDefault : (settings.setting leaf).default = leaf.default := by
    rw [hDeclared leaf]
    cases leaf <;> rfl
  have hCoerce : ∀ text, coerce leaf.default text = .ok (.text text) := by
    cases leaf <;> exact fun _ => rfl
  rw [get, Setting.get, Setting.override?, hVariable, shownContent]
  simp only [hNamed, Bool.false_eq_true, if_false, find_variableName]
  cases environment.lookup leaf.variableName with
  | none => simp only [hDefault]; rfl
  | some text => simp only [hDefault, hCoerce]

theorem contents_of_declared {settings : Settings} (hDeclared : settings.Declared)
    (environment : Environment) (leaves : List Leaf) :
    settings.contents environment leaves =
      .ok (leaves.map fun leaf =>
        (leaf.name, shownContent environment (settings.stored leaf) leaf)) := by
  induction leaves with
  | nil => rfl
  | cons leaf rest ih => simp only [contents, get_of_declared hDeclared, ih, List.map_cons]

theorem sectionContent_of_declared {settings : Settings} (hDeclared : settings.Declared)
    (environment : Environment) (group : Section) :
    settings.sectionContent environment group =
      .ok (.record (group.leaves.map fun leaf =>
        (leaf.name, shownContent environment (settings.stored leaf) leaf))) := by
  simp only [sectionContent, contents_of_declared hDeclared]

theorem content_of_declared {settings : Settings} (hDeclared : settings.Declared)
    (environment : Environment) :
    settings.content environment =
      .ok (.record (Section.all.map fun group =>
        (group.name, .record (group.leaves.map fun leaf =>
          (leaf.name, shownContent environment (settings.stored leaf) leaf))))) := by
  have hSections : ∀ groups, settings.sectionContents environment groups =
      .ok (groups.map fun group =>
        (group.name, .record (group.leaves.map fun leaf =>
          (leaf.name, shownContent environment (settings.stored leaf) leaf)))) := by
    intro groups
    induction groups with
    | nil => rfl
    | cons group rest ih =>
        simp only [sectionContents, sectionContent_of_declared hDeclared, ih, List.map_cons]
  simp only [content, hSections]

end Settings

end LogicSignature
