import LogicSignature.Proofs.SettingsLoading

/-
Loading the default files.

Each default file is loaded in turn, and a fault of the settings in it is passed over with a
warning. Any other fault ends the loading there: the files in front of it stay loaded, and those
behind it are not looked at. Such a fault comes from a place that cannot be opened or decoded, from
data without a meaning, from a key that is no text, or from a refused number that is too long to be
shown.
-/

namespace LogicSignature

/-- The faults of loading a settings file that are none of the settings themselves. -/
inductive Fault.Obstructing : Fault → Prop
  | storage (fault : Storage.Fault) : Obstructing (.storage fault)
  | encoding (fault : Utf8.Fault) : Obstructing (.encoding fault)
  | misfit (cause : Yaml.Misfit) : Obstructing (.misfit cause)
  | settingKey (kind : Text) : Obstructing (.settingKey kind)
  | numeral (fault : Numeral.Fault) : Obstructing (.numeral fault)

namespace Session

open Settings (Leaf Section Verdict Write)

/-- What is left of the result of loading when a fault of the settings is passed over. -/
def passOver : Except Fault Unit → Except Fault Unit
  | .error (.settings _) => .ok ()
  | result => result

/-- Whether a default file keeps the loading from going on: a fault is left. -/
def obstructs (session : Session) (path : Storage.Path) : Bool :=
  !(passOver (perform (loadSettings path) session).1).isOk

/-- Loading the file ends in a fault that is not passed over. -/
def Obstructed (session : Session) (path : Storage.Path) : Prop :=
  ∃ fault : Fault, fault.Obstructing ∧ (perform (loadSettings path) session).1 = .error fault

/-- Whether a file can be loaded. -/
def loads (session : Session) (path : Storage.Path) : Bool :=
  (perform (loadSettings path) session).1.isOk

/-! ### One default file -/

theorem verdictsAt_of_missing {storage : Storage} {path : Storage.Path}
    (hMissing : storage.pathExists path = .ok false) :
    verdictsAt storage path = .error (.settings (.missingFile path.text)) := by
  apply verdictsAt_of_unreadable
  rw [settingsData, hMissing]
  rfl

theorem verdictsAt_of_unknown {storage : Storage} {path : Storage.Path} {fault : Storage.Fault}
    (hUnknown : storage.pathExists path = .error fault) :
    verdictsAt storage path = .error (.storage fault) := by
  apply verdictsAt_of_unreadable
  rw [settingsData, hUnknown]
  rfl

theorem exists_sinkFor_eq_ok {session : Session} (hDeclared : session.settings.Declared)
    (level : Option Journal.Severity) (format : Option Text) :
    ∃ sink, session.sinkFor level format = .ok sink := by
  have hConfigured : ∃ lineFormat, session.configuredFormat = .ok lineFormat := by
    rw [configuredFormat, Settings.get_of_declared hDeclared]
    generalize Settings.shownContent session.environment _ _ = content
    rcases content with value | datum | fields
    · cases value <;> exact ⟨_, rfl⟩
    · exact ⟨_, rfl⟩
    · exact ⟨_, rfl⟩
  have hFormat : ∃ lineFormat, session.formatFor level format = .ok lineFormat := by
    unfold formatFor
    split
    · split
      · exact hConfigured
      · exact ⟨_, rfl⟩
    · exact hConfigured
  obtain ⟨lineFormat, hFormat⟩ := hFormat
  refine ⟨⟨level.getD session.configuredLevel, [lineFormat]⟩, ?_⟩
  rw [sinkFor, hFormat]
  rfl

theorem exists_component_eq_ok {session : Session} (hDeclared : session.settings.Declared)
    (layer : Journal.Layer) (name : Text) :
    ∃ made after, perform (component layer name) session = (.ok made, after) := by
  rw [component, perform_bind, perform_get, proceed_ok]
  cases session.journal.components.lookup (Journal.componentKey layer name) with
  | some found => exact ⟨found, session, rfl⟩
  | none =>
      obtain ⟨sink, hSink⟩ :=
        exists_sinkFor_eq_ok hDeclared session.journal.level session.journal.format
      simp only [newComponent, perform_bind, perform_ask, hSink, proceed_ok, perform_get,
        perform_set, perform_pure, perform_change]
      exact ⟨_, _, rfl⟩

theorem warning_spec {session : Session} (hDeclared : session.settings.Declared)
    (written : Journal.Note) :
    (perform (do
        let manager ← component .config "manager"
        note manager.layer manager.name .warning written) session).1 = .ok () ∧
      withoutLogs (perform (do
        let manager ← component .config "manager"
        note manager.layer manager.name .warning written) session).2 = withoutLogs session := by
  obtain ⟨made, after, hMade⟩ := exists_component_eq_ok hDeclared .config "manager"
  have hLogs := onlyLogs_component .config "manager" session
  rw [hMade] at hLogs
  rw [perform_bind, hMade, proceed_ok]
  exact ⟨rfl, hLogs⟩

/-- A default file is loaded like any other file, but a fault of the settings is passed over. -/
theorem loadDefaultFile_spec {session : Session} (hDeclared : session.settings.Declared)
    (path : Storage.Path) :
    (perform (loadDefaultFile path) session).1 =
        passOver (perform (loadSettings path) session).1 ∧
      withoutLogs (perform (loadDefaultFile path) session).2 =
        withoutLogs (perform (loadSettings path) session).2 := by
  simp only [loadDefaultFile, perform_bind, perform_ask]
  cases hFound : session.storage.pathExists path with
  | error fault =>
      rw [perform_loadSettings_of_error (verdictsAt_of_unknown hFound)]
      exact ⟨rfl, rfl⟩
  | ok found =>
      cases found with
      | false =>
          rw [perform_loadSettings_of_error (verdictsAt_of_missing hFound)]
          exact ⟨rfl, rfl⟩
      | true =>
          have hAfter : (perform (loadSettings path) session).2.settings.Declared := by
            rw [settings_loadSettings hDeclared]
            exact hDeclared.writeAll _
          simp only [proceed_ok, if_true, perform_tryCatch]
          rcases hLoad : perform (loadSettings path) session with ⟨fault | _, after⟩
          · rw [hLoad] at hAfter
            simp only [recover_error]
            -- Only a fault of the settings is handled; all others are raised again.
            cases fault with
            | settings fault => exact warning_spec hAfter _
            | _ => exact ⟨rfl, rfl⟩
          · exact ⟨rfl, rfl⟩

section

variable {session : Session} (hDeclared : session.settings.Declared) (path : Storage.Path)

include hDeclared

theorem settings_loadDefaultFile :
    (perform (loadDefaultFile path) session).2.settings =
      session.settings.writeAll (writesAt session.storage path) :=
  (congrArg Session.settings (loadDefaultFile_spec hDeclared path).2).trans
    (settings_loadSettings hDeclared path)

theorem loadedFiles_loadDefaultFile :
    (perform (loadDefaultFile path) session).2.loadedFiles =
      session.loadedFiles ++ (if session.loads path then [path] else []) := by
  have hFiles := congrArg Session.loadedFiles (loadDefaultFile_spec hDeclared path).2
  refine hFiles.trans ?_
  change (perform (loadSettings path) session).2.loadedFiles = _
  rw [loadedFiles_loadSettings hDeclared, loads, result_loadSettings hDeclared]
  cases faultAt session.storage path <;> rfl

theorem storage_loadDefaultFile :
    (perform (loadDefaultFile path) session).2.storage = session.storage :=
  (congrArg Session.storage (loadDefaultFile_spec hDeclared path).2).trans
    (keeps_loadSettings Session.storage (fun _ _ _ _ => rfl) path session)

end

/-! ### One default file after the other -/

/-- The files up to the first that stops the loading, which is one of them. -/
def upTo (stops : Storage.Path → Bool) : List Storage.Path → List Storage.Path
  | [] => []
  | path :: rest => path :: (if stops path then [] else upTo stops rest)

/-- How loading ends does not depend on what is stored in the settings. -/
theorem result_loadSettings_congr {left right : Session} (hLeft : left.settings.Declared)
    (hRight : right.settings.Declared) (hStorage : left.storage = right.storage)
    (path : Storage.Path) :
    (perform (loadSettings path) left).1 = (perform (loadSettings path) right).1 := by
  rw [result_loadSettings hLeft, result_loadSettings hRight, hStorage]

theorem eq_of_passOver_eq_error {result : Except Fault Unit} {fault : Fault}
    (hPassed : passOver result = .error fault) : result = .error fault := by
  unfold passOver at hPassed
  split at hPassed
  · cases hPassed
  · exact hPassed

theorem perform_loadDefaultFiles {session : Session} (hDeclared : session.settings.Declared)
    (paths : List Storage.Path) :
    (perform (loadDefaultFiles paths) session).1 =
        (paths.find? session.obstructs).elim (.ok ())
          (fun path => (perform (loadSettings path) session).1) ∧
      (perform (loadDefaultFiles paths) session).2.settings =
        session.settings.writeAll
          ((upTo session.obstructs paths).flatMap (writesAt session.storage)) ∧
      (perform (loadDefaultFiles paths) session).2.loadedFiles =
        session.loadedFiles ++ (upTo session.obstructs paths).filter session.loads := by
  induction paths generalizing session with
  | nil => exact ⟨rfl, rfl, (List.append_nil _).symm⟩
  | cons path rest ih =>
      have hResult := (loadDefaultFile_spec hDeclared path).1
      have hSettings := settings_loadDefaultFile hDeclared path
      have hFiles := loadedFiles_loadDefaultFile hDeclared path
      have hStorage := storage_loadDefaultFile hDeclared path
      rw [loadDefaultFiles, perform_bind, upTo]
      rcases hOne : perform (loadDefaultFile path) session with ⟨fault | _, after⟩
      · rw [hOne] at hResult hSettings hFiles
        have hObstructs : session.obstructs path = true := by
          rw [obstructs, ← hResult]
          rfl
        have hLoads : session.loads path = false := by
          rw [loads, eq_of_passOver_eq_error hResult.symm]
          rfl
        rw [List.find?_cons_of_pos hObstructs, if_pos hObstructs, proceed_error]
        refine ⟨(eq_of_passOver_eq_error hResult.symm).symm, ?_, ?_⟩
        · rw [hSettings, List.flatMap_singleton]
        · rw [hFiles, hLoads, List.filter_cons_of_neg (by simp [hLoads])]
          rfl
      · rw [hOne] at hResult hSettings hFiles hStorage
        have hObstructs : session.obstructs path = false := by
          rw [obstructs, ← hResult]
          rfl
        have hAfter : after.settings.Declared := by
          rw [hSettings]
          exact hDeclared.writeAll _
        -- The files behind are judged as they would have been before this one was loaded.
        have hSame := result_loadSettings_congr hAfter hDeclared hStorage
        have hObstructsSame : after.obstructs = session.obstructs :=
          funext fun other => by rw [obstructs, obstructs, hSame]
        have hLoadsSame : after.loads = session.loads :=
          funext fun other => by rw [loads, loads, hSame]
        obtain ⟨hRestResult, hRestSettings, hRestFiles⟩ := ih hAfter
        rw [List.find?_cons_of_neg (by simp [hObstructs]), if_neg (by simp [hObstructs]),
          proceed_ok, hRestResult, hRestSettings, hRestFiles, hObstructsSame, hLoadsSame,
          hStorage, hSettings, hFiles, ← Settings.writeAll_append, List.flatMap_cons,
          List.append_assoc, List.filter_cons]
        refine ⟨?_, rfl, ?_⟩
        · simp only [hSame]
        · cases session.loads path <;> rfl

/-! ### The faults that are not passed over -/

/-- A fault that loading a settings file can end in. -/
def OfLoading (fault : Fault) : Prop := (∃ own, fault = .settings own) ∨ fault.Obstructing

theorem ofLoading_inadmissible (content : Content) :
    OfLoading (.ofStoring (Settings.inadmissible content)) := by
  rw [Settings.inadmissible]
  cases content.shown with
  | ok shown => exact .inl ⟨_, rfl⟩
  | error fault => exact .inr (.numeral fault)

theorem ofLoading_of_formFault? {file : Datum} {name : Text} {place : Nat}
    {fault : Settings.ApplyFault} (hFault : Settings.formFault? file name place = some fault) :
    OfLoading (.ofApplying fault) := by
  unfold Settings.formFault? at hFault
  split at hFault
  · split at hFault
    · obtain ⟨key, _, hKey⟩ := List.exists_of_findSome?_eq_some hFault
      split at hKey
      · cases hKey
      · cases hKey
        exact .inr (.settingKey _)
    · cases hFault
  · cases hFault

theorem ofLoading_of_mem_aside {graph : Graph} {name : Text} {place : Nat}
    {fault : Settings.ApplyFault}
    (hMember : .error fault ∈ Settings.asideVerdicts graph name place) :
    OfLoading (.ofApplying fault) := by
  obtain ⟨found, hFound, hSame⟩ := List.mem_map.mp hMember
  cases hSame
  exact ofLoading_of_formFault? (Option.mem_toList.mp hFound)

theorem ofLoading_of_mem_leaf {graph : Graph} {group : Section} {entry : Nat × Nat}
    {fault : Settings.ApplyFault}
    (hMember : .error fault ∈ Settings.leafVerdicts graph group entry) :
    OfLoading (.ofApplying fault) := by
  unfold Settings.leafVerdicts at hMember
  split at hMember
  · split at hMember
    · have hVerdict := List.mem_singleton.mp hMember
      rw [Settings.verdict] at hVerdict
      split at hVerdict
      · cases hVerdict
      · cases hVerdict
        exact ofLoading_inadmissible _
    · exact ofLoading_of_mem_aside hMember
  · cases List.mem_singleton.mp hMember
    exact .inr (.settingKey _)

theorem ofLoading_of_mem {graph : Graph} {entries : List (Nat × Nat)}
    {fault : Settings.ApplyFault}
    (hMember : .error fault ∈ Settings.fileVerdicts graph entries) :
    OfLoading (.ofApplying fault) := by
  obtain ⟨entry, _, hEntry⟩ := List.mem_flatMap.mp hMember
  unfold Settings.entryVerdicts at hEntry
  split at hEntry
  · split at hEntry
    · obtain ⟨inner, _, hInner⟩ := List.mem_flatMap.mp hEntry
      exact ofLoading_of_mem_leaf hInner
    · exact ofLoading_of_mem_aside hEntry
  · cases List.mem_singleton.mp hEntry
    exact .inr (.settingKey _)

theorem ofLoading_of_settingsData {storage : Storage} {path : Storage.Path} {fault : Fault}
    (hFault : settingsData storage path 0 = .error fault) : OfLoading fault := by
  unfold settingsData at hFault
  cases hFound : storage.pathExists path with
  | error obstacle =>
      rw [hFound] at hFault
      cases hFault
      exact .inr (.storage _)
  | ok found =>
      rw [hFound] at hFault
      cases found with
      | false =>
          cases hFault
          exact .inl ⟨_, rfl⟩
      | true =>
          cases hRead : storage.read path with
          | error obstacle =>
              rw [hRead] at hFault
              cases hFault
              exact .inr (.storage _)
          | ok bytes =>
              rw [hRead] at hFault
              simp only [bind, Except.bind, pure, Except.pure] at hFault
              cases hParsed : Yaml.parse (Stream.decode bytes).1
                  ((Stream.decode bytes).2.map Yaml.Fault.undecodable) with
              | ok data =>
                  rw [hParsed] at hFault
                  cases hFault
              | error found =>
                  rw [hParsed] at hFault
                  cases found with
                  | malformed =>
                      cases hFault
                      exact .inl ⟨_, rfl⟩
                  | misfit cause =>
                      cases hFault
                      exact .inr (.misfit cause)
                  | undecodable fault =>
                      cases hFault
                      exact .inr (.encoding fault)

theorem ofLoading_of_settingsEntries {file : Datum} {path : Storage.Path} {fault : Fault}
    (hFault : settingsEntries file path = .error fault) : OfLoading fault := by
  unfold settingsEntries at hFault
  split at hFault <;> cases hFault
  exact .inl ⟨_, rfl⟩

theorem ofLoading_of_faultAt {storage : Storage} {path : Storage.Path} {fault : Fault}
    (hFault : faultAt storage path = some fault) : OfLoading fault := by
  rw [faultAt] at hFault
  cases hData : settingsData storage path 0 with
  | error found =>
      rw [verdictsAt_of_unreadable hData] at hFault
      cases hFault
      exact ofLoading_of_settingsData hData
  | ok file =>
      rw [verdictsAt_of_data hData] at hFault
      cases hEntries : settingsEntries file path with
      | error found =>
          rw [hEntries] at hFault
          cases hFault
          exact ofLoading_of_settingsEntries hEntries
      | ok entries =>
          rw [hEntries] at hFault
          obtain ⟨applied, hApplied, rfl⟩ := Option.map_eq_some_iff.mp hFault
          exact ofLoading_of_mem (Settings.mem_of_faultIn hApplied)

/-- A file keeps the loading from going on exactly if loading it ends in an obstructing fault. -/
theorem obstructed_iff {session : Session} (hDeclared : session.settings.Declared)
    (path : Storage.Path) : session.Obstructed path ↔ session.obstructs path = true := by
  rw [Obstructed, obstructs, result_loadSettings hDeclared]
  cases hFault : faultAt session.storage path with
  | none =>
      constructor
      · rintro ⟨fault, _, hError⟩
        cases hError
      · intro hObstructs
        cases hObstructs
  | some fault =>
      rcases ofLoading_of_faultAt hFault with ⟨own, rfl⟩ | hOther
      · constructor
        · rintro ⟨fault, hOther, hError⟩
          cases hError
          cases hOther
        · intro hObstructs
          cases hObstructs
      · constructor
        · intro _
          cases hOther <;> rfl
        · intro _
          exact ⟨fault, hOther, rfl⟩

theorem upTo_of_forall {stops : Storage.Path → Bool} {paths : List Storage.Path}
    (hNone : ∀ path ∈ paths, stops path = false) : upTo stops paths = paths := by
  induction paths with
  | nil => rfl
  | cons path rest ih =>
      obtain ⟨hPath, hRest⟩ := List.forall_mem_cons.mp hNone
      rw [upTo, hPath, ih hRest]
      rfl

theorem upTo_append_cons {stops : Storage.Path → Bool} {front : List Storage.Path}
    {path : Storage.Path} (behind : List Storage.Path)
    (hFront : ∀ other ∈ front, stops other = false) (hPath : stops path = true) :
    upTo stops (front ++ path :: behind) = front ++ [path] := by
  induction front with
  | nil =>
      rw [List.nil_append, upTo, if_pos hPath]
      rfl
  | cons first rest ih =>
      obtain ⟨hFirst, hRest⟩ := List.forall_mem_cons.mp hFront
      rw [List.cons_append, upTo, hFirst, ih hRest]
      rfl

theorem not_loads_of_obstructs {session : Session} {path : Storage.Path}
    (hObstructs : session.obstructs path = true) : session.loads path = false := by
  rw [obstructs] at hObstructs
  rw [loads]
  cases hResult : (perform (loadSettings path) session).1 with
  | error fault => rfl
  | ok done =>
      rw [hResult] at hObstructs
      cases hObstructs

theorem perform_loadDefaultSettings (session : Session) :
    perform loadDefaultSettings session =
      perform (loadDefaultFiles session.defaultFiles) session := by
  rw [loadDefaultSettings, perform_bind, perform_get, proceed_ok]

section

variable {session : Session} (hDeclared : session.settings.Declared)

include hDeclared

theorem loadDefaultSettings_of_unobstructed
    (hNone : ∀ path ∈ session.defaultFiles, session.obstructs path = false) :
    (perform loadDefaultSettings session).1 = .ok () ∧
      (perform loadDefaultSettings session).2.loadedFiles =
        session.loadedFiles ++ session.defaultFiles.filter session.loads := by
  obtain ⟨hResult, _, hFiles⟩ := perform_loadDefaultFiles hDeclared session.defaultFiles
  have hFind : session.defaultFiles.find? session.obstructs = none :=
    List.find?_eq_none.mpr (fun path hMember => by simp [hNone path hMember])
  rw [perform_loadDefaultSettings, hResult, hFiles, hFind, upTo_of_forall hNone]
  exact ⟨rfl, rfl⟩

theorem loadDefaultSettings_of_obstructed {front behind : List Storage.Path} {path : Storage.Path}
    (hSplit : session.defaultFiles = front ++ path :: behind)
    (hFront : ∀ other ∈ front, session.obstructs other = false)
    (hPath : session.obstructs path = true) :
    (perform loadDefaultSettings session).1 = (perform (loadSettings path) session).1 ∧
      (perform loadDefaultSettings session).2.loadedFiles =
        session.loadedFiles ++ front.filter session.loads := by
  obtain ⟨hResult, _, hFiles⟩ := perform_loadDefaultFiles hDeclared session.defaultFiles
  have hFind : session.defaultFiles.find? session.obstructs = some path := by
    rw [hSplit]
    exact List.find?_eq_some_iff_append.mpr
      ⟨hPath, front, behind, rfl, fun other hMember => by simp [hFront other hMember]⟩
  have hLast : [path].filter session.loads = [] :=
    List.filter_cons_of_neg (by simp [not_loads_of_obstructs hPath])
  rw [perform_loadDefaultSettings, hResult, hFiles, hFind, hSplit,
    upTo_append_cons behind hFront hPath, List.filter_append, hLast, List.append_nil]
  exact ⟨rfl, rfl⟩

end

/-- Loading the default files is done exactly if no file obstructs it, and then the files that can
be loaded count as loaded, in their order. Otherwise the first obstructing file ends it with its own
fault, and only the files in front of it are loaded. -/
theorem loadDefaultSettings_completes_iff (session : Session)
    (hDeclared : session.settings.Declared) :
    ((perform loadDefaultSettings session).1 = .ok () ↔
        ∀ path ∈ session.defaultFiles, ¬ session.Obstructed path) ∧
      ((∀ path ∈ session.defaultFiles, ¬ session.Obstructed path) →
        (perform loadDefaultSettings session).2.loadedFiles =
          session.loadedFiles ++ session.defaultFiles.filter session.loads) ∧
      ∀ front path behind fault,
        session.defaultFiles = front ++ path :: behind →
        (∀ other ∈ front, ¬ session.Obstructed other) →
        fault.Obstructing → (perform (loadSettings path) session).1 = .error fault →
        (perform loadDefaultSettings session).1 = .error fault ∧
          (perform loadDefaultSettings session).2.loadedFiles =
            session.loadedFiles ++ front.filter session.loads := by
  simp only [obstructed_iff hDeclared, Bool.not_eq_true]
  refine ⟨⟨?_, ?_⟩, ?_, ?_⟩
  · intro hDone
    cases hFind : session.defaultFiles.find? session.obstructs with
    | none =>
        intro path hMember
        simpa using List.find?_eq_none.mp hFind path hMember
    | some path =>
        -- The first obstructing file would have ended the loading with its fault.
        obtain ⟨hPath, front, behind, hSplit, hFront⟩ := List.find?_eq_some_iff_append.mp hFind
        have hPassed : ∀ other ∈ front, session.obstructs other = false := by
          intro other hMember
          simpa using hFront other hMember
        obtain ⟨fault, _, hError⟩ := (obstructed_iff hDeclared path).mpr hPath
        rw [(loadDefaultSettings_of_obstructed hDeclared hSplit hPassed hPath).1, hError] at hDone
        cases hDone
  · intro hNone
    exact (loadDefaultSettings_of_unobstructed hDeclared hNone).1
  · intro hNone
    exact (loadDefaultSettings_of_unobstructed hDeclared hNone).2
  · intro front path behind fault hSplit hFront hOther hError
    have hPath : session.obstructs path = true :=
      (obstructed_iff hDeclared path).mp ⟨fault, hOther, hError⟩
    rw [← hError]
    exact loadDefaultSettings_of_obstructed hDeclared hSplit hFront hPath

/-! ### A directory and a list in the place of the first file -/

/-- A session with the given entry as the first default file. The second file can be loaded. -/
def withFirstFile (entry : Storage.Entry) : Session :=
  startedWith
    [(["lsigcheck.yaml"], entry), (["config"], .directory),
      (["config", "lsigcheck.yaml"], textFile "observability:\n  log_level: debug\n")]

def secondFile : Storage.Path := Storage.Path.ofText "config/lsigcheck.yaml"

theorem directory_ends_default_loading :
    (perform loadDefaultSettings (withFirstFile .directory)).1 ≠ .ok () ∧
      (withFirstFile .directory).defaultFiles.filter (withFirstFile .directory).loads =
        [secondFile] ∧
      (perform loadDefaultSettings (withFirstFile .directory)).2.loadedFiles = [] := by
  have hFailed : (perform loadDefaultSettings (withFirstFile .directory)).1.isOk = false := by
    decide +kernel
  refine ⟨fun hDone => ?_, by decide +kernel, by decide +kernel⟩
  rw [hDone] at hFailed
  cases hFailed

def listInFront : Session := withFirstFile (textFile "- debug\n")

theorem list_is_passed_over :
    (∀ path ∈ listInFront.defaultFiles, ¬ listInFront.Obstructed path) ∧
      (perform loadDefaultSettings listInFront).1 = .ok () ∧
      (perform loadDefaultSettings listInFront).2.loadedFiles = [secondFile] := by
  have hDeclared : listInFront.settings.Declared := Settings.declared_initial
  have hNone : ∀ path ∈ listInFront.defaultFiles, ¬ listInFront.Obstructed path := by
    intro path
    rw [obstructed_iff hDeclared]
    revert path
    decide +kernel
  have hLoads : listInFront.defaultFiles.filter listInFront.loads = [secondFile] := by
    decide +kernel
  obtain ⟨hDone, hFiles, _⟩ := loadDefaultSettings_completes_iff listInFront hDeclared
  refine ⟨hNone, hDone.mpr hNone, ?_⟩
  rw [hFiles hNone, hLoads]
  rfl

end Session

end LogicSignature
