import LogicSignature.Proofs.EncodedText
import LogicSignature.Proofs.SettingsDocument
import LogicSignature.Proofs.SettingsValidity
import LogicSignature.Proofs.SurroundedText

/-
Exported settings.

Settings without complaints are texts, and their document holds printable characters only. So the
bytes of the document can be read in pieces of any size, and loading them stores the texts that were
shown when the document was made.
-/

namespace LogicSignature

/-! ### Streams of ASCII characters -/

namespace Stream

theorem nextPiece_pos (read gained count : Nat) : 0 < nextPiece read gained count := by
  have hLeast : 0 < leastPiece := by decide
  rw [nextPiece]
  split
  · exact hLeast
  · exact Nat.lt_of_lt_of_le hLeast (Nat.le_max_left _ _)

theorem decodePieces_ascii {characters : List Char}
    (hAscii : ∀ character ∈ characters, character.toNat < 0x80) {bound size : Nat}
    (hBound : characters.length < bound) (hSize : 0 < size) (done : List Char) :
    decodePieces bound size [] (Utf8.bytesOf characters) done = (done ++ characters, none) := by
  induction bound generalizing characters size done with
  | zero => exact absurd hBound (Nat.not_lt_zero _)
  | succ bound ih =>
      cases characters with
      | nil => rfl
      | cons first others =>
          have hPiece : ∀ character ∈ (first :: others).take size, character.toNat < 0x80 :=
            fun character hMember => hAscii character (List.mem_of_mem_take hMember)
          have hLater : ∀ character ∈ (first :: others).drop size, character.toNat < 0x80 :=
            fun character hMember => hAscii character (List.mem_of_mem_drop hMember)
          have hRead : (Utf8.bytesOf (first :: others)).take size =
              Utf8.bytesOf ((first :: others).take size) := by
            rw [Utf8.bytesOf_ascii hAscii, Utf8.bytesOf_ascii hPiece, List.map_take]
          have hRest : (Utf8.bytesOf (first :: others)).drop size =
              Utf8.bytesOf ((first :: others).drop size) := by
            rw [Utf8.bytesOf_ascii hAscii, Utf8.bytesOf_ascii hLater, List.map_drop]
          have hSome : (Utf8.bytesOf (first :: others)).isEmpty = false := by
            rw [Utf8.bytesOf_ascii hAscii]
            rfl
          have hDecoded : decodePiece (Utf8.bytesOf ((first :: others).take size)) =
              .ok ((first :: others).take size, []) := by
            rw [decodePiece, Utf8.decode_bytesOf]
          have hShorter : ((first :: others).drop size).length < bound := by
            rw [List.length_cons] at hBound
            rw [List.length_drop, List.length_cons]
            omega
          rw [decodePieces]
          simp only [hSome, Bool.false_eq_true, if_false, List.nil_append, hRead, hDecoded, hRest]
          rw [ih hLater hShorter (nextPiece_pos _ _ _), List.append_assoc, List.take_append_drop]

/-- ASCII characters without carriage returns are read as they are. -/
theorem decode_ascii {characters : List Char}
    (hAscii : ∀ character ∈ characters, character.toNat < 0x80) (hReturn : '\r' ∉ characters) :
    decode (Utf8.bytesOf characters) = (characters, none) := by
  have hBound : characters.length < (Utf8.bytesOf characters).length + 2 :=
    Nat.lt_add_right 1 (Nat.lt_succ_of_le (Utf8.length_le_bytesOf characters))
  have hLines := Utf8.normaliseLines_plain_append hReturn []
  rw [List.append_nil] at hLines
  rw [decode, decodePieces_ascii hAscii hBound (by decide)]
  simp only [List.nil_append, hLines]
  rw [Utf8.normaliseLines, List.append_nil]

end Stream

/-! ### Settings without complaints -/

namespace Settings

theorem exists_text_of_admits {leaf : Leaf} {content : Content}
    (hAdmits : leaf.admits content = true) : ∃ text, content = .text text := by
  rcases content with value | datum | fields
  · cases value with
    | text word => exact ⟨word, rfl⟩
    | _ => cases leaf <;> cases hAdmits
  · cases leaf <;> cases hAdmits
  · cases leaf <;> cases hAdmits

theorem admits_shownContent {settings : Settings}
    (hStored : ∀ leaf content, settings.stored leaf = some content → leaf.admits content = true)
    {environment : Environment} {leaf : Leaf}
    (hComplaint : variableComplaint environment leaf = none) :
    leaf.admits (shownContent environment (settings.stored leaf) leaf) = true := by
  rw [variableComplaint] at hComplaint
  rw [shownContent]
  cases hVariable : environment.lookup leaf.variableName with
  | some word =>
      rw [hVariable] at hComplaint
      simpa using hComplaint
  | none =>
      cases hContent : settings.stored leaf with
      | none => exact admits_default leaf
      | some content => exact hStored leaf content hContent

theorem variableComplaint_langSpecPath (environment : Environment) :
    variableComplaint environment .langSpecPath = none := by
  rw [variableComplaint]
  cases environment.lookup Leaf.langSpecPath.variableName <;> rfl

/-- Without complaints every setting shows a content that it admits. -/
theorem admits_shownContent_of_validate {settings : Settings} (hDeclared : settings.Declared)
    (hStored : ∀ leaf content, settings.stored leaf = some content → leaf.admits content = true)
    {environment : Environment} (hValid : settings.validate environment = .ok []) (leaf : Leaf) :
    leaf.admits (shownContent environment (settings.stored leaf) leaf) = true := by
  rw [validate_of_admits hDeclared hStored] at hValid
  obtain ⟨hLevel, hFormat⟩ := List.append_eq_nil_iff.mp (Except.ok.inj hValid)
  refine admits_shownContent hStored ?_
  cases leaf with
  | langSpecPath => exact variableComplaint_langSpecPath environment
  | logLevel => exact Option.toList_eq_nil_iff.mp hLevel
  | logFormat => exact Option.toList_eq_nil_iff.mp hFormat

/-! ### Verdicts about the document -/

/-- The texts of a document are stored as they stand in it. -/
theorem fileVerdicts_settingsGraph {path format level : Text}
    (hFormat : Leaf.logFormat.admits (.text format) = true)
    (hLevel : Leaf.logLevel.admits (.text level) = true) :
    fileVerdicts (Yaml.settingsGraph path format level) [(1, 2), (3, 4)] =
      [.ok (.langSpecPath, .text path), .ok (.logFormat, .text format),
        .ok (.logLevel, .text level)] := by
  have hVerdicts : fileVerdicts (Yaml.settingsGraph path format level) [(1, 2), (3, 4)] =
      [verdict .langSpecPath (.text path), verdict .logFormat (.text format),
        verdict .logLevel (.text level)] := rfl
  rw [hVerdicts, verdict, verdict, verdict, if_pos hFormat, if_pos hLevel]
  rfl

end Settings

namespace Session

open Settings (Leaf Section)

/-! ### Loading the document -/

theorem verdictsAt_of_document {storage : Storage} {place : Storage.Path}
    {path format level : Text} {characters : List Char}
    (hFound : storage.pathExists place = .ok true)
    (hRead : storage.read place = .ok (Utf8.bytesOf characters))
    (hInline : ∀ character ∈ characters, Yaml.Inline character ∨ character = '\n')
    (hParse : Yaml.parse characters none = .ok (Yaml.settingsGraph path format level, 0)) :
    verdictsAt storage place =
      .ok (Settings.fileVerdicts (Yaml.settingsGraph path format level) [(1, 2), (3, 4)]) := by
  have hAscii : ∀ character ∈ characters, character.toNat < 0x80 := by
    intro character hMember
    rcases hInline character hMember with ⟨_, hHigh⟩ | rfl
    · omega
    · decide
  have hReturn : '\r' ∉ characters := fun hMember => absurd (hInline _ hMember) (by decide)
  have hFile : settingsData storage place 0 =
      .ok ⟨0, Yaml.settingsGraph path format level, 0⟩ := by
    simp only [settingsData, hFound, hRead, bind, Except.bind, pure, Except.pure, if_true,
      Stream.decode_ascii hAscii hReturn, Option.map_none, hParse]
  rw [verdictsAt_of_data hFile]
  rfl

theorem validate_of_settingsComplaints {session : Session} {complaints : List Text}
    (hComplaints : (perform settingsComplaints session).1 = .ok complaints) :
    session.settings.validate session.environment = .ok complaints := by
  rw [settingsComplaints, perform_ask] at hComplaints
  cases hOutcome : session.settings.validate session.environment with
  | ok found =>
      simp only [hOutcome] at hComplaints
      rw [Except.ok.inj hComplaints]
  | error fault =>
      simp only [hOutcome] at hComplaints
      cases hComplaints

theorem perform_settingsContent_of_texts {session : Session}
    (hDeclared : session.settings.Declared) {path format level : Text}
    (hPath : session.shown .langSpecPath = .text path)
    (hFormat : session.shown .logFormat = .text format)
    (hLevel : session.shown .logLevel = .text level) :
    perform settingsContent session =
      (.ok (Yaml.settingsRecord path format level), session) := by
  have hRecord : Section.all.map (fun group =>
      (group.name, Content.record
        (group.leaves.map fun leaf => (leaf.name, session.shown leaf)))) =
      ([("langspec", .record [("path", session.shown .langSpecPath)]),
        ("observability", .record [("log_level", session.shown .logLevel),
          ("log_format", session.shown .logFormat)])] : List (Text × Content)) := rfl
  rw [perform_settingsContent hDeclared, hRecord, hPath, hFormat, hLevel]
  rfl

/-- Loading the document of three texts into fresh settings shows the texts. -/
theorem perform_loadSettings_of_document {session : Session}
    (hFresh : session.settings = Settings.initial)
    (hVariables : ∀ leaf : Leaf, session.environment.lookup leaf.variableName = none)
    {place : Storage.Path} {path format level : Text}
    (hFormat : Leaf.logFormat.admits (.text format) = true)
    (hLevel : Leaf.logLevel.admits (.text level) = true)
    (hVerdicts : verdictsAt session.storage place =
      .ok (Settings.fileVerdicts (Yaml.settingsGraph path format level) [(1, 2), (3, 4)])) :
    (perform (loadSettings place) session).1 = .ok () ∧
      (perform settingsContent (perform (loadSettings place) session).2).1 =
        .ok (Yaml.settingsRecord path format level) := by
  have hDeclared : session.settings.Declared := hFresh ▸ Settings.declared_initial
  rw [Settings.fileVerdicts_settingsGraph hFormat hLevel] at hVerdicts
  rw [perform_loadSettings_of_verdicts hDeclared hVerdicts]
  refine ⟨rfl, ?_⟩
  have hShown (leaf : Leaf) : (session.afterEntries place [.ok (.langSpecPath, .text path),
      .ok (.logFormat, .text format), .ok (.logLevel, .text level)]).shown leaf =
      (Settings.lastTo leaf [(.langSpecPath, .text path), (.logFormat, .text format),
        (.logLevel, .text level)]).getD leaf.default := by
    rw [shown, afterEntries, Settings.shownContent]
    simp only [hVariables, Settings.stored_writeAll, hFresh, Settings.stored_initial,
      Option.or_none]
    rfl
  rw [perform_settingsContent_of_texts (hDeclared.writeAll _) (hShown .langSpecPath)
    (hShown .logFormat) (hShown .logLevel)]

/-! ### Exporting and loading back -/

/-- Exporting and loading back is lossless. Whatever was stored and loaded since a reset, and
whatever the variables are, settings without complaints have a document, and loading the bytes of
the document into fresh settings, without the variables, shows the same contents. -/
theorem exported_settings_load_back (session : Session) (calls : List Call)
    (environment : Settings.Environment)
    (hValid : (perform settingsComplaints
      { runCalls (.resetSettings :: calls) session with environment }).1 = .ok []) :
    let now : Session := { runCalls (.resetSettings :: calls) session with environment }
    ∃ text bytes content,
      perform settingsYaml now = (.ok text, now) ∧ Utf8.encode text = .ok bytes ∧
      perform settingsContent now = (.ok content, now) ∧
      ∀ (later : Session) (place : Storage.Path), later.storage.pathExists place = .ok true →
        later.storage.read place = .ok bytes →
        (∀ name ∈ (["LSIG_LANGSPEC_PATH", "LSIG_LOG_LEVEL", "LSIG_LOG_FORMAT"] : List Text),
          later.environment.lookup name = none) →
        let loaded := perform (loadSettings place) (perform resetSettings later).2
        loaded.1 = .ok () ∧ (perform settingsContent loaded.2).1 = .ok content := by
  intro now
  have hRecords : Records (history calls (Call.resetSettings.after session))
      (runCalls (.resetSettings :: calls) session) := records_after_calls rfl calls
  have hDeclared : now.settings.Declared := hRecords.declared
  have hAdmits := Settings.admits_shownContent_of_validate hDeclared hRecords.admits_stored
    (validate_of_settingsComplaints hValid)
  obtain ⟨path, hPath⟩ := Settings.exists_text_of_admits (hAdmits .langSpecPath)
  obtain ⟨format, hFormat⟩ := Settings.exists_text_of_admits (hAdmits .logFormat)
  obtain ⟨level, hLevel⟩ := Settings.exists_text_of_admits (hAdmits .logLevel)
  have hContent := perform_settingsContent_of_texts hDeclared hPath hFormat hLevel
  obtain ⟨characters, hText, hInline, hParse⟩ := Yaml.parse_renderContent path format level
  refine ⟨Text.ofChars characters, Utf8.bytesOf characters, Yaml.settingsRecord path format level,
    ?_, Utf8.encodeWith_ofChars _ 0 characters, hContent, ?_⟩
  · rw [settingsYaml, perform_bind, hContent, proceed_ok, perform_ask, yamlOf, hText]
  · intro later place hFound hRead hVariables
    have hAdmitsFormat := hAdmits .logFormat
    have hAdmitsLevel := hAdmits .logLevel
    rw [hFormat] at hAdmitsFormat
    rw [hLevel] at hAdmitsLevel
    have hFresh : (perform resetSettings later).2.settings = Settings.initial := rfl
    refine perform_loadSettings_of_document hFresh (fun leaf => hVariables _ ?_) hAdmitsFormat
      hAdmitsLevel (verdictsAt_of_document hFound hRead hInline hParse)
    cases leaf <;> decide

/-- A path with marks, quotes, a line end and half of a surrogate pair, too long for one line. -/
def awkwardPath : Text :=
  Text.ofString
    "~: # the 'many' versions of a \x22specification\x22, kept where nobody looks twice\n - " ++
    [.half 5]

def awkwardCalls : List Call :=
  [.store "langspec.path" (.text awkwardPath), .store "observability.log_level" (.text "debug")]

def awkwardSettings : Session :=
  { runCalls (.resetSettings :: awkwardCalls) (startedWith []) with
    environment := [("LSIG_LOG_FORMAT", "text")] }

def exportedFile : Storage.Path := Storage.Path.ofText "exported.yaml"

theorem awkward_path_loads_back :
    (perform settingsComplaints awkwardSettings).1 = .ok [] ∧
      ∃ text bytes, perform settingsYaml awkwardSettings = (.ok text, awkwardSettings) ∧
        Utf8.encode text = .ok bytes ∧
        let later := startedWith [(["exported.yaml"], .file bytes)]
        let loaded := perform (loadSettings exportedFile) (perform resetSettings later).2
        loaded.1 = .ok () ∧
          (perform settingsContent loaded.2).1 =
            .ok (Yaml.settingsRecord awkwardPath "text" "debug") := by
  have hValid : (perform settingsComplaints awkwardSettings).1 = .ok [] := rfl
  obtain ⟨text, bytes, content, hText, hBytes, hContent, hLoads⟩ :=
    exported_settings_load_back (startedWith []) awkwardCalls [("LSIG_LOG_FORMAT", "text")] hValid
  have hShown : perform settingsContent awkwardSettings =
      (.ok (Yaml.settingsRecord awkwardPath "text" "debug"), awkwardSettings) := rfl
  have hSame : content = Yaml.settingsRecord awkwardPath "text" "debug" :=
    Except.ok.inj (congrArg Prod.fst (hContent.symm.trans hShown))
  refine ⟨hValid, text, bytes, hText, hBytes, ?_⟩
  rw [← hSame]
  exact hLoads (startedWith [(["exported.yaml"], .file bytes)]) exportedFile rfl rfl
    fun _ _ => rfl

end Session

end LogicSignature
