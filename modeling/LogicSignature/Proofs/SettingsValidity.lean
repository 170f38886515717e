import LogicSignature.Proofs.SettingsHistory

/-
Complaints about the settings.

A content is checked before it is stored, alone or as the entry of a file, and the part of a file
that was applied before a fault went through the same check. So a content that is shown without
being admitted comes from a variable, which nothing checks, and the complaints tell which variables
have a text that their setting does not admit.
-/

namespace LogicSignature

namespace Settings

/-! ### What is written is admitted -/

theorem admits_of_verdict {leaf : Leaf} {content : Content} {write : Write}
    (hVerdict : verdict leaf content = .ok write) : write.1.admits write.2 = true := by
  unfold verdict at hVerdict
  split at hVerdict
  · rename_i hAdmits
    cases hVerdict
    exact hAdmits
  · cases hVerdict

theorem not_mem_asideVerdicts (graph : Graph) (name : Text) (place : Nat) (write : Write) :
    .ok write ∉ asideVerdicts graph name place := by
  intro hMember
  obtain ⟨fault, _, hFault⟩ := List.mem_map.mp hMember
  cases hFault

theorem admits_of_mem_leafVerdicts {graph : Graph} {group : Section} {entry : Nat × Nat}
    {write : Write} (hMember : .ok write ∈ leafVerdicts graph group entry) :
    write.1.admits write.2 = true := by
  unfold leafVerdicts at hMember
  split at hMember
  · split at hMember
    · exact admits_of_verdict (List.mem_singleton.mp hMember).symm
    · exact absurd hMember (not_mem_asideVerdicts _ _ _ _)
  · cases List.mem_singleton.mp hMember

theorem admits_of_mem_entryVerdicts {graph : Graph} {entry : Nat × Nat} {write : Write}
    (hMember : .ok write ∈ entryVerdicts graph entry) : write.1.admits write.2 = true := by
  unfold entryVerdicts at hMember
  split at hMember
  · split at hMember
    · obtain ⟨inner, _, hInner⟩ := List.mem_flatMap.mp hMember
      exact admits_of_mem_leafVerdicts hInner
    · exact absurd hMember (not_mem_asideVerdicts _ _ _ _)
  · cases List.mem_singleton.mp hMember

theorem mem_of_mem_writesIn {verdicts : List Verdict} {write : Write}
    (hMember : write ∈ writesIn verdicts) : .ok write ∈ verdicts := by
  induction verdicts with
  | nil => cases hMember
  | cons verdict rest ih =>
      cases verdict with
      | error fault => cases hMember
      | ok first =>
          rcases List.mem_cons.mp hMember with rfl | hRest
          · exact List.mem_cons_self
          · exact List.mem_cons_of_mem _ (ih hRest)

theorem admits_of_lastTo {writes : List Write}
    (hAdmits : ∀ write ∈ writes, write.1.admits write.2 = true) {leaf : Leaf} {content : Content}
    (hLast : lastTo leaf writes = some content) : leaf.admits content = true := by
  obtain ⟨write, hFind, rfl⟩ := Option.map_eq_some_iff.mp hLast
  have hLeaf : write.1 = leaf := by simpa using List.find?_some hFind
  rw [← hLeaf]
  exact hAdmits write (List.mem_reverse.mp (List.mem_of_find?_eq_some hFind))

theorem admits_default (leaf : Leaf) : leaf.admits leaf.default = true := by
  cases leaf <;> decide

/-! ### One complaint for each variable -/

/-- The complaint about a variable: its text is not admitted by the setting. -/
def variableComplaint (environment : Environment) (leaf : Leaf) : Option Text :=
  match environment.lookup leaf.variableName with
  | some word =>
    if leaf.admits (.text word) then none
    else some (leaf.path ++ ": validation failed for value " ++ word)
  | none => none

theorem variableComplaint_eq_some_iff (environment : Environment) (leaf : Leaf)
    (complaint : Text) :
    variableComplaint environment leaf = some complaint ↔
      ∃ word, environment.lookup leaf.variableName = some word ∧
        leaf.admits (.text word) = false ∧
        complaint = leaf.path ++ ": validation failed for value " ++ word := by
  unfold variableComplaint
  constructor
  · intro hComplaint
    split at hComplaint
    · rename_i word hWord
      split at hComplaint
      · cases hComplaint
      · rename_i hAdmits
        exact ⟨word, hWord, Bool.eq_false_iff.mpr hAdmits, (Option.some.inj hComplaint).symm⟩
    · cases hComplaint
  · rintro ⟨word, hWord, hAdmits, rfl⟩
    simp only [hWord, hAdmits, Bool.false_eq_true, if_false]

section

variable {settings : Settings} (hDeclared : settings.Declared)
  (hAdmits : ∀ leaf content, settings.stored leaf = some content → leaf.admits content = true)

include hDeclared

theorem complaint_of_declared (environment : Environment) (leaf : Leaf) :
    settings.complaint environment leaf.group leaf =
      .ok (if leaf.admits (shownContent environment (settings.stored leaf) leaf) then none
        else some (refusal leaf.path (shownContent environment (settings.stored leaf) leaf))) := by
  obtain ⟨check, hCheck, hPasses⟩ :=
    passes_of_check leaf (shownContent environment (settings.stored leaf) leaf)
  have hDeclaredCheck : (settings.setting leaf).check = some check := by
    rw [hDeclared leaf]
    exact hCheck
  have hPath : leaf.group.name ++ "." ++ leaf.name = leaf.path := by
    cases leaf <;> rfl
  have hGet : (settings.setting leaf).get environment =
      .ok (shownContent environment (settings.stored leaf) leaf) :=
    get_of_declared hDeclared environment leaf
  simp only [complaint, hGet, hDeclaredCheck, hPasses, hPath]
  cases leaf.admits (shownContent environment (settings.stored leaf) leaf) <;> rfl

include hAdmits

theorem complaint_of_admits (environment : Environment) (leaf : Leaf) :
    settings.complaint environment leaf.group leaf =
      .ok (variableComplaint environment leaf) := by
  rw [complaint_of_declared hDeclared, variableComplaint, shownContent]
  cases environment.lookup leaf.variableName with
  | some word => rfl
  | none =>
      -- Without a variable the setting shows what is stored, or its default.
      have hShown : leaf.admits ((settings.stored leaf).getD leaf.default) = true := by
        cases hStored : settings.stored leaf with
        | none => exact admits_default leaf
        | some content => exact hAdmits leaf content hStored
      simp only [hShown, if_true]

theorem validate_of_admits (environment : Environment) :
    settings.validate environment =
      .ok ((variableComplaint environment .logLevel).toList ++
        (variableComplaint environment .logFormat).toList) := by
  have hPath : variableComplaint environment .langSpecPath = none := by
    rw [variableComplaint]
    cases environment.lookup Leaf.langSpecPath.variableName <;> rfl
  have hComplaint := complaint_of_admits hDeclared hAdmits environment
  have hLangSpec := hComplaint .langSpecPath
  have hLevel := hComplaint .logLevel
  have hFormat := hComplaint .logFormat
  simp only [Leaf.group] at hLangSpec hLevel hFormat
  simp [validate, allLeaves, Section.all, Section.leaves, complaintsAbout, hLangSpec, hLevel,
    hFormat, hPath]

end

end Settings

namespace Session

open Settings (Leaf Write)

/-! ### Over runs -/

theorem admits_of_mem_writesAt {storage : Storage} {path : Storage.Path} {write : Write}
    (hMember : write ∈ writesAt storage path) : write.1.admits write.2 = true := by
  rw [writesAt] at hMember
  cases hFile : settingsData storage path 0 with
  | error fault =>
      rw [verdictsAt_of_unreadable hFile] at hMember
      cases hMember
  | ok file =>
      rw [verdictsAt_of_data hFile] at hMember
      cases hEntries : settingsEntries file path with
      | error fault =>
          rw [hEntries] at hMember
          cases hMember
      | ok entries =>
          rw [hEntries] at hMember
          obtain ⟨entry, _, hEntry⟩ := List.mem_flatMap.mp (Settings.mem_of_mem_writesIn hMember)
          exact Settings.admits_of_mem_entryVerdicts hEntry

theorem admits_of_mem_writes {occurrence : Occurrence} {write : Write}
    (hMember : write ∈ occurrence.writes) : write.1.admits write.2 = true := by
  obtain ⟨before, call⟩ := occurrence
  cases call with
  | store path content =>
      have hStored : write ∈ writeAt path content := hMember
      unfold writeAt at hStored
      split at hStored
      · split at hStored
        · rename_i hAdmits
          rw [List.mem_singleton.mp hStored]
          exact hAdmits
        · cases hStored
      · cases hStored
  | loadSettings path => exact admits_of_mem_writesAt hMember
  | loadDefaultSettings =>
      obtain ⟨path, _, hPath⟩ := List.mem_flatMap.mp hMember
      exact admits_of_mem_writesAt hPath
  | _ => cases hMember

theorem Records.admits_stored {past : List Occurrence} {now : Session}
    (hRecords : Records past now) (leaf : Leaf) (content : Content)
    (hStored : now.settings.stored leaf = some content) : leaf.admits content = true := by
  rw [hRecords.stored] at hStored
  refine Settings.admits_of_lastTo (fun write hMember => ?_) hStored
  obtain ⟨occurrence, _, hWrite⟩ := List.mem_flatMap.mp hMember
  exact admits_of_mem_writes hWrite

/-- Only variables are complained about. Whatever was stored and loaded since a reset, there is one
complaint about the level if its variable has a text that names no level, one about the format if
its variable has a text that names no format, in this order, and no other. -/
theorem complaints_tell_of_variables (session : Session) (calls : List Call)
    (environment : Settings.Environment) :
    ∃ level format : Option Text,
      (perform settingsComplaints
        { runCalls (.resetSettings :: calls) session with environment }).1 =
          .ok (level.toList ++ format.toList) ∧
      (∀ complaint, level = some complaint ↔
        ∃ word, environment.lookup (Text.ofString "LSIG_LOG_LEVEL") = some word ∧
          word ∉ (["debug", "info", "warning", "error", "critical"] : List Text) ∧
          complaint = "observability.log_level" ++ ": validation failed for value " ++ word) ∧
      ∀ complaint, format = some complaint ↔
        ∃ word, environment.lookup (Text.ofString "LSIG_LOG_FORMAT") = some word ∧
          word ∉ (["json", "text"] : List Text) ∧
          complaint = "observability.log_format" ++ ": validation failed for value " ++ word := by
  have hRecords : Records (history calls (Call.resetSettings.after session))
      (runCalls (.resetSettings :: calls) session) := records_after_calls rfl calls
  have hWords : ∀ (words : List Text) word, words.contains word = false ↔ word ∉ words := by
    simp
  have hLevel : ∀ word, Leaf.logLevel.admits (.text word) = false ↔
      word ∉ (["debug", "info", "warning", "error", "critical"] : List Text) :=
    hWords Settings.logLevels
  have hFormat : ∀ word, Leaf.logFormat.admits (.text word) = false ↔
      word ∉ (["json", "text"] : List Text) :=
    hWords Settings.logFormats
  refine ⟨Settings.variableComplaint environment .logLevel,
    Settings.variableComplaint environment .logFormat, ?_, fun complaint => ?_,
    fun complaint => ?_⟩
  · have hValidate :=
      Settings.validate_of_admits hRecords.declared hRecords.admits_stored environment
    rw [settingsComplaints, perform_ask]
    simp only [hValidate]
  · have hPath : Leaf.logLevel.path = "observability.log_level" := by decide
    rw [Settings.variableComplaint_eq_some_iff]
    simp only [hLevel, hPath, Leaf.variableName]
  · have hPath : Leaf.logFormat.path = "observability.log_format" := by decide
    rw [Settings.variableComplaint_eq_some_iff]
    simp only [hFormat, hPath, Leaf.variableName]

end Session

end LogicSignature
