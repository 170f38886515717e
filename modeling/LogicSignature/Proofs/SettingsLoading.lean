import LogicSignature.Proofs.Actions
import LogicSignature.Proofs.FileEntries
import LogicSignature.Proofs.SettingsPaths

/-
Loading a settings file.

A file that cannot be read, is not YAML or holds no mapping leaves the session as it was. From then
on each entry is applied as it is met: what stands in front of the first fault stays stored although
the loading fails and the file does not count as loaded. So a failed loading is without a trace only
if those entries happen to show nothing new.
-/

namespace LogicSignature.Session

open Settings (Leaf Section Verdict Write)

/-- The verdicts about the entries of the file at a path, unless there is a fault in front of all
entries. -/
def verdictsAt (storage : Storage) (path : Storage.Path) : Except Fault (List Verdict) := do
  let file ← settingsData storage path 0
  let entries ← settingsEntries file path
  return Settings.fileVerdicts file.graph entries

/-- What loading the file at a path stores, in order. -/
def writesAt (storage : Storage) (path : Storage.Path) : List Write :=
  match verdictsAt storage path with
  | .ok verdicts => Settings.writesIn verdicts
  | .error _ => []

/-- The fault of loading the file at a path, if there is one. -/
def faultAt (storage : Storage) (path : Storage.Path) : Option Fault :=
  match verdictsAt storage path with
  | .ok verdicts => (Settings.faultIn verdicts).map .ofApplying
  | .error fault => some fault

/-! ### What loading does -/

/-- The serial number of a file has no part in reading it. -/
theorem settingsData_relabel (storage : Storage) (path : Storage.Path) (serial : Nat) :
    settingsData storage path serial =
      (settingsData storage path 0).map (fun file => { file with serial }) := by
  unfold settingsData
  cases storage.pathExists path with
  | error fault => rfl
  | ok found =>
      cases found with
      | false => rfl
      | true =>
          cases storage.read path with
          | error fault => rfl
          | ok bytes =>
              simp only [bind, Except.bind, pure, Except.pure]
              cases Yaml.parse (Stream.decode bytes).1
                  ((Stream.decode bytes).2.map Yaml.Fault.undecodable) with
              | ok data => rfl
              | error fault => cases fault <;> rfl

theorem verdictsAt_of_unreadable {storage : Storage} {path : Storage.Path} {fault : Fault}
    (hFile : settingsData storage path 0 = .error fault) :
    verdictsAt storage path = .error fault := by
  rw [verdictsAt, hFile]
  rfl

theorem verdictsAt_of_data {storage : Storage} {path : Storage.Path} {file : Datum}
    (hFile : settingsData storage path 0 = .ok file) :
    verdictsAt storage path =
      (settingsEntries file path).map (Settings.fileVerdicts file.graph) := by
  rw [verdictsAt, hFile]
  cases hEntries : settingsEntries file path <;> simp only [bind, Except.bind, hEntries] <;> rfl

/-- The session after the entries of a file were applied up to the first fault. -/
def afterEntries (session : Session) (path : Storage.Path) (verdicts : List Verdict) : Session :=
  { session with
    settings := session.settings.writeAll (Settings.writesIn verdicts)
    loadedFiles :=
      session.loadedFiles ++ (if (Settings.faultIn verdicts).isNone then [path] else [])
    nextFile := session.nextFile + 1 }

theorem perform_loadSettings_of_error {session : Session} {path : Storage.Path} {fault : Fault}
    (hFault : verdictsAt session.storage path = .error fault) :
    perform (loadSettings path) session = (.error fault, session) := by
  simp only [loadSettings, perform_bind, perform_ask, settingsData_relabel _ _ session.nextFile]
  cases hFile : settingsData session.storage path 0 with
  | error found =>
      rw [verdictsAt_of_unreadable hFile] at hFault
      cases hFault
      rfl
  | ok file =>
      rw [verdictsAt_of_data hFile] at hFault
      have hRelabelled : settingsEntries { file with serial := session.nextFile } path =
          settingsEntries file path := rfl
      cases hEntries : settingsEntries file path with
      | ok entries =>
          rw [hEntries] at hFault
          cases hFault
      | error found =>
          rw [hEntries] at hFault hRelabelled
          cases hFault
          simp only [Except.map, proceed_ok, hRelabelled, proceed_error, perform_bind, perform_ask]

theorem perform_loadSettings_of_verdicts {session : Session}
    (hDeclared : session.settings.Declared) {path : Storage.Path} {verdicts : List Verdict}
    (hVerdicts : verdictsAt session.storage path = .ok verdicts) :
    perform (loadSettings path) session =
      ((Settings.faultIn verdicts).elim (.ok ()) (fun fault => .error (.ofApplying fault)),
        session.afterEntries path verdicts) := by
  simp only [loadSettings, perform_bind, perform_ask, settingsData_relabel _ _ session.nextFile]
  cases hFile : settingsData session.storage path 0 with
  | error found =>
      rw [verdictsAt_of_unreadable hFile] at hVerdicts
      cases hVerdicts
  | ok file =>
      rw [verdictsAt_of_data hFile] at hVerdicts
      have hRelabelled : settingsEntries { file with serial := session.nextFile } path =
          settingsEntries file path := rfl
      cases hEntries : settingsEntries file path with
      | error found =>
          rw [hEntries] at hVerdicts
          cases hVerdicts
      | ok entries =>
          rw [hEntries] at hVerdicts hRelabelled
          cases hVerdicts
          simp only [Except.map, proceed_ok, hRelabelled, perform_bind, perform_ask, perform_get]
          rw [Settings.applyEntries_eq_obey hDeclared, Settings.obey]
          cases hFault : Settings.faultIn (Settings.fileVerdicts file.graph entries) with
          | none => simp [afterEntries, hFault]
          | some fault => simp [afterEntries, hFault]

section

variable {session : Session} (hDeclared : session.settings.Declared) (path : Storage.Path)

include hDeclared

theorem result_loadSettings :
    (perform (loadSettings path) session).1 =
      (faultAt session.storage path).elim (.ok ()) .error := by
  rw [faultAt]
  cases hVerdicts : verdictsAt session.storage path with
  | error fault =>
      rw [perform_loadSettings_of_error hVerdicts]
      rfl
  | ok verdicts =>
      rw [perform_loadSettings_of_verdicts hDeclared hVerdicts]
      simp only
      cases Settings.faultIn verdicts <;> rfl

theorem settings_loadSettings :
    (perform (loadSettings path) session).2.settings =
      session.settings.writeAll (writesAt session.storage path) := by
  rw [writesAt]
  cases hVerdicts : verdictsAt session.storage path with
  | error fault =>
      rw [perform_loadSettings_of_error hVerdicts]
      rfl
  | ok verdicts =>
      rw [perform_loadSettings_of_verdicts hDeclared hVerdicts]
      rfl

theorem loadedFiles_loadSettings :
    (perform (loadSettings path) session).2.loadedFiles =
      session.loadedFiles ++ (if (faultAt session.storage path).isNone then [path] else []) := by
  rw [faultAt]
  cases hVerdicts : verdictsAt session.storage path with
  | error fault =>
      rw [perform_loadSettings_of_error hVerdicts]
      exact (List.append_nil _).symm
  | ok verdicts =>
      rw [perform_loadSettings_of_verdicts hDeclared hVerdicts, afterEntries]
      simp only [Option.isNone_map]

end

/-- Loading touches nothing but the settings and what is known about their files. -/
theorem keeps_loadSettings {View : Type} (view : Session → View)
    (hView : ∀ session settings loadedFiles nextFile,
      view { session with settings, loadedFiles, nextFile } = view session)
    (path : Storage.Path) : Keeps view (loadSettings path) := by
  intro session
  simp only [loadSettings, perform_bind, perform_ask]
  cases settingsData session.storage path session.nextFile with
  | error fault => rfl
  | ok file =>
      simp only [proceed_ok, perform_bind, perform_ask]
      cases settingsEntries file path with
      | error fault => rfl
      | ok entries =>
          simp only [proceed_ok, perform_bind, perform_get]
          rcases Settings.applyEntries file entries session.settings with ⟨settings, fault | _⟩
          · exact hView session _ _ _
          · exact hView session _ _ _

/-! ### Looking up -/

/-- What a setting shows in a session. -/
def shown (session : Session) (leaf : Leaf) : Content :=
  Settings.shownContent session.environment (session.settings.stored leaf) leaf

section

variable {session : Session} (hDeclared : session.settings.Declared)

include hDeclared

theorem perform_contentAt_of_isAt {leaf : Leaf} {path : Text} (hPath : leaf.IsAt path) :
    perform (contentAt path) session = (.ok (session.shown leaf), session) := by
  rw [contentAt, perform_ask, (Settings.resolve?_eq_leaf_iff _ _ leaf).mpr hPath]
  simp only [Settings.get_of_declared hDeclared]
  rfl

theorem perform_contentAt_leaf (leaf : Leaf) :
    perform (contentAt leaf.path) session = (.ok (session.shown leaf), session) :=
  perform_contentAt_of_isAt hDeclared (Settings.isAt_path leaf)

theorem perform_contentAt_section_of_isAt {group : Section} {path : Text}
    (hPath : group.IsAt path) :
    perform (contentAt path) session =
      (.ok (.record (group.leaves.map fun leaf => (leaf.name, session.shown leaf))), session) := by
  rw [contentAt, perform_ask, Settings.resolve?_of_isAt_section _ hPath]
  simp only [Settings.sectionContent_of_declared hDeclared]
  rfl

theorem perform_contentAt_section (group : Section) :
    perform (contentAt group.name) session =
      (.ok (.record (group.leaves.map fun leaf => (leaf.name, session.shown leaf))), session) :=
  perform_contentAt_section_of_isAt hDeclared (Settings.isAt_name group)

theorem perform_settingsContent :
    perform settingsContent session =
      (.ok (.record (Section.all.map fun group =>
        (group.name,
          .record (group.leaves.map fun leaf => (leaf.name, session.shown leaf))))), session) := by
  rw [settingsContent, perform_ask]
  simp only [Settings.content_of_declared hDeclared]
  rfl

end

/-! ### Failed loading -/

/-- Two sessions whose settings cannot be told apart: setting by setting, section by section, as a
whole, and by the files that count as loaded. -/
structure SameSettings (before after : Session) : Prop where
  leaves : ∀ leaf : Leaf,
    (perform (contentAt leaf.path) after).1 = (perform (contentAt leaf.path) before).1
  sections : ∀ group : Section,
    (perform (contentAt group.name) after).1 = (perform (contentAt group.name) before).1
  whole : (perform settingsContent after).1 = (perform settingsContent before).1
  files : after.loadedFiles = before.loadedFiles

theorem sameSettings_iff {before after : Session} (hBefore : before.settings.Declared)
    (hAfter : after.settings.Declared) :
    SameSettings before after ↔
      (∀ leaf, after.shown leaf = before.shown leaf) ∧ after.loadedFiles = before.loadedFiles := by
  constructor
  · intro hSame
    refine ⟨fun leaf => ?_, hSame.files⟩
    have hLeaf := hSame.leaves leaf
    rw [perform_contentAt_leaf hAfter, perform_contentAt_leaf hBefore] at hLeaf
    exact Except.ok.inj hLeaf
  · rintro ⟨hShown, hFiles⟩
    refine ⟨fun leaf => ?_, fun group => ?_, ?_, hFiles⟩
    · rw [perform_contentAt_leaf hAfter, perform_contentAt_leaf hBefore, hShown]
    · rw [perform_contentAt_section hAfter, perform_contentAt_section hBefore, funext hShown]
    · rw [perform_settingsContent hAfter, perform_settingsContent hBefore, funext hShown]

theorem environment_loadSettings (path : Storage.Path) (session : Session) :
    (perform (loadSettings path) session).2.environment = session.environment :=
  keeps_loadSettings Session.environment (fun _ _ _ _ => rfl) path session

theorem shown_loadSettings {session : Session} (hDeclared : session.settings.Declared)
    (path : Storage.Path) (leaf : Leaf) :
    (perform (loadSettings path) session).2.shown leaf =
      Settings.shownContent session.environment
        ((Settings.lastTo leaf (writesAt session.storage path)).or (session.settings.stored leaf))
        leaf := by
  rw [shown, environment_loadSettings, settings_loadSettings hDeclared, Settings.stored_writeAll]

theorem shownContent_or_eq_iff (environment : Settings.Environment)
    (stored written : Option Content) (leaf : Leaf) :
    Settings.shownContent environment (written.or stored) leaf =
        Settings.shownContent environment stored leaf ↔
      ∀ content, environment.lookup leaf.variableName = none → written = some content →
        Settings.shownContent environment stored leaf = content := by
  unfold Settings.shownContent
  cases environment.lookup leaf.variableName with
  | some text => simp
  | none =>
      cases written with
      | none => simp
      | some content => simp [eq_comm]

/-- A failed loading leaves each setting with the last content that stood in front of the fault. So
the settings are as before exactly if each of these contents was shown before, or is hidden by a
variable. A fault in front of all entries leaves the whole session as it was. -/
theorem failed_loading_keeps_settings_iff (session : Session)
    (hDeclared : session.settings.Declared) (path : Storage.Path)
    (hFailed : (perform (loadSettings path) session).1 ≠ .ok ()) :
    (SameSettings session (perform (loadSettings path) session).2 ↔
      ∀ leaf content, session.environment.lookup leaf.variableName = none →
        Settings.lastTo leaf (writesAt session.storage path) = some content →
        (perform (contentAt leaf.path) session).1 = .ok content) ∧
    (∀ leaf : Leaf,
      (perform (contentAt leaf.path) (perform (loadSettings path) session).2).1 =
        .ok (Settings.shownContent session.environment
          ((Settings.lastTo leaf (writesAt session.storage path)).or
            (session.settings.stored leaf)) leaf)) ∧
    (perform (loadSettings path) session).2.loadedFiles = session.loadedFiles ∧
    ∀ fault, verdictsAt session.storage path = .error fault →
      perform (loadSettings path) session = (.error fault, session) := by
  have hAfter : (perform (loadSettings path) session).2.settings.Declared := by
    rw [settings_loadSettings hDeclared]
    exact hDeclared.writeAll _
  have hFiles : (perform (loadSettings path) session).2.loadedFiles = session.loadedFiles := by
    rw [loadedFiles_loadSettings hDeclared]
    cases hFault : faultAt session.storage path with
    | none =>
        rw [result_loadSettings hDeclared, hFault] at hFailed
        exact absurd rfl hFailed
    | some fault => exact List.append_nil _
  refine ⟨?_, fun leaf => ?_, hFiles, fun fault => perform_loadSettings_of_error⟩
  · rw [sameSettings_iff hDeclared hAfter]
    constructor
    · rintro ⟨hShown, _⟩ leaf content hVariable hLast
      have hLeaf := hShown leaf
      rw [shown_loadSettings hDeclared] at hLeaf
      rw [perform_contentAt_leaf hDeclared]
      exact congrArg Except.ok
        ((shownContent_or_eq_iff _ _ _ leaf).mp hLeaf content hVariable hLast)
    · intro hKept
      refine ⟨fun leaf => ?_, hFiles⟩
      rw [shown_loadSettings hDeclared, shown]
      refine (shownContent_or_eq_iff _ _ _ leaf).mpr fun content hVariable hLast => ?_
      have hContent := hKept leaf content hVariable hLast
      rw [perform_contentAt_leaf hDeclared] at hContent
      exact Except.ok.inj hContent
  · rw [perform_contentAt_leaf hAfter, shown_loadSettings hDeclared]

/-! ### A file with a good and a faulty entry -/

/-- A session at its start, with entries at places below the working directory. -/
def startedWith (entries : List (List Text × Storage.Entry)) : Session :=
  start
    { entries := entries.map fun (names, entry) => (names.map Storage.nameBytes, entry)
      working := []
      home := [Storage.nameBytes "home"] }
    "home" [] ⟨0, Binary64.zero false⟩

/-- A file that holds a text. -/
def textFile (text : String) : Storage.Entry :=
  .file (text.toList.flatMap fun character => Utf8.encodeCode character.toNat)

/-- Whether an answer is a text. -/
def isText (answer : Except Fault Content) (word : Text) : Bool :=
  match answer with
  | .ok (.value (.text shown)) => shown == word
  | _ => false

theorem eq_of_isText {answer : Except Fault Content} {word : Text}
    (hText : isText answer word = true) : answer = .ok (.text word) := by
  unfold isText at hText
  split at hText
  · rw [beq_iff_eq.mp hText]
    rfl
  · cases hText

/-- The good entry stands in front of the faulty one. -/
def goodThenFaulty : Session :=
  startedWith
    [(["half.yaml"], textFile "observability:\n  log_level: debug\n  log_format: xml\n")]

/-- The good entry stands behind the faulty one. -/
def faultyThenGood : Session :=
  startedWith
    [(["half.yaml"], textFile "observability:\n  log_format: xml\n  log_level: debug\n")]

def halfFile : Storage.Path := Storage.Path.ofText "half.yaml"

theorem good_entry_outlives_failed_loading :
    (perform (loadSettings halfFile) goodThenFaulty).1 ≠ .ok () ∧
      (perform (contentAt "observability.log_level") goodThenFaulty).1 = .ok (.text "warning") ∧
      (perform (contentAt "observability.log_level")
        (perform (loadSettings halfFile) goodThenFaulty).2).1 = .ok (.text "debug") ∧
      ¬ SameSettings goodThenFaulty (perform (loadSettings halfFile) goodThenFaulty).2 := by
  have hFailed : (perform (loadSettings halfFile) goodThenFaulty).1.isOk = false := by
    decide +kernel
  have hBefore : (perform (contentAt "observability.log_level") goodThenFaulty).1 =
      .ok (.text "warning") := eq_of_isText (by decide +kernel)
  have hAfter : (perform (contentAt "observability.log_level")
      (perform (loadSettings halfFile) goodThenFaulty).2).1 = .ok (.text "debug") :=
    eq_of_isText (by decide +kernel)
  refine ⟨fun hDone => ?_, hBefore, hAfter, fun hSame => ?_⟩
  · rw [hDone] at hFailed
    cases hFailed
  · have hLevel : Leaf.logLevel.path = "observability.log_level" := by decide
    have hLeaf := hSame.leaves .logLevel
    rw [hLevel, hBefore, hAfter] at hLeaf
    cases hLeaf

theorem faulty_entry_in_front_keeps_settings :
    (perform (loadSettings halfFile) faultyThenGood).1 ≠ .ok () ∧
      SameSettings faultyThenGood (perform (loadSettings halfFile) faultyThenGood).2 := by
  have hRefused : (perform (loadSettings halfFile) faultyThenGood).1.isOk = false := by
    decide +kernel
  have hFailed : (perform (loadSettings halfFile) faultyThenGood).1 ≠ .ok () := by
    intro hDone
    rw [hDone] at hRefused
    cases hRefused
  have hNone : writesAt faultyThenGood.storage halfFile = [] :=
    List.isEmpty_iff.mp (by decide +kernel)
  refine ⟨hFailed, ?_⟩
  refine (failed_loading_keeps_settings_iff faultyThenGood Settings.declared_initial halfFile
    hFailed).1.mpr ?_
  intro leaf content _ hLast
  rw [hNone] at hLast
  cases hLast

end LogicSignature.Session
