import LogicSignature.Proofs.LangSpecSources
import LogicSignature.Proofs.LongIntegers
import LogicSignature.Proofs.SurroundedText
import LogicSignature.Proofs.ViolationList

/-
How loading a specification from a path ends.

A file of UTF-8 text that reads as a JSON document without violations gives the specification that
the document describes. A missing file, a directory, bytes that are no text, a text that is no
document and a document with violations are each a fault of the specification, and only the last of
them lists violations. One thing is neither: a document with an integer that is too long to be read
ends the loading with the fault of the reader.
-/

namespace LogicSignature

/-! ### Bytes as text -/

namespace Utf8

theorem bytesOf_of_decodeFrom {bound position : Nat} {bytes : List UInt8}
    {done characters : List Char} (hBound : bytes.length < bound)
    (hDecode : decodeFrom bound position bytes done = .ok characters) :
    ∃ rest, characters = done.reverse ++ rest ∧ bytes = bytesOf rest := by
  -- Each character takes a byte at least, so that the bound lasts to the end of the bytes.
  induction bound generalizing position bytes done with
  | zero => exact absurd hBound (Nat.not_lt_zero _)
  | succ bound ih =>
      cases bytes with
      | nil =>
          cases hDecode
          exact ⟨[], (List.append_nil _).symm, rfl⟩
      | cons byte others =>
          rw [decodeFrom] at hDecode
          split at hDecode
          case h_1 => cases hDecode
          case h_2 lead hLead =>
            split at hDecode
            case h_1 => cases hDecode
            case h_2 code after hTail =>
              have hBytes := eq_encodeCode_of_tail hLead hTail
              obtain ⟨_, behind, _, hCode, _⟩ := readAs_encodeCode (Char.ofNat code)
              have hShorter : after.length < bound := by
                have hLength := congrArg List.length hBytes
                rw [hCode, List.cons_append, List.length_cons, List.length_cons,
                  List.length_append] at hLength
                rw [List.length_cons] at hBound
                omega
              obtain ⟨rest, hCharacters, rfl⟩ := ih hShorter hDecode
              refine ⟨Char.ofNat code :: rest, ?_, hBytes⟩
              rw [hCharacters, List.reverse_cons, List.append_assoc, List.singleton_append]

theorem decode_eq_ok_iff (bytes : List UInt8) (characters : List Char) :
    decode bytes = .ok characters ↔ bytes = bytesOf characters := by
  constructor
  · intro hDecode
    obtain ⟨rest, rfl, rfl⟩ := bytesOf_of_decodeFrom (Nat.lt_succ_self _) hDecode
    rfl
  · rintro rfl
    exact decode_bytesOf characters

/-- The bytes of a character are those of the core library. There the leading bits are masked, which
changes nothing below the code at which the next length starts. -/
theorem encodeCode_eq_utf8EncodeChar (character : Char) :
    encodeCode character.toNat = String.utf8EncodeChar character := by
  have hValid := CodePoint.char_valid character
  have hCode : character.val.toNat = character.toNat := rfl
  rw [encodeCode, String.utf8EncodeChar.eq_1, hCode]
  by_cases hOne : character.toNat < 0x80
  · rw [if_pos hOne, if_pos (Nat.le_of_lt_succ hOne), Nat.toUInt8]
  · rw [if_neg hOne, if_neg (mt Nat.lt_succ_of_le hOne)]
    by_cases hTwo : character.toNat < 0x800
    · have hLead : character.toNat / 64 % 32 = character.toNat / 64 := Nat.mod_eq_of_lt (by omega)
      rw [if_pos hTwo, if_pos (Nat.le_of_lt_succ hTwo), hLead]
      simp only [Nat.add_comm, Nat.toUInt8]
    · rw [if_neg hTwo, if_neg (mt Nat.lt_succ_of_le hTwo)]
      by_cases hThree : character.toNat < 0x10000
      · have hLead : character.toNat / 4096 % 16 = character.toNat / 4096 :=
          Nat.mod_eq_of_lt (by omega)
        rw [if_pos hThree, if_pos (Nat.le_of_lt_succ hThree), hLead]
        simp only [Nat.add_comm, Nat.toUInt8]
      · have hLead : character.toNat / 262144 % 8 = character.toNat / 262144 :=
          Nat.mod_eq_of_lt (by omega)
        rw [if_neg hThree, if_neg (mt Nat.lt_succ_of_le hThree), hLead]
        simp only [Nat.add_comm, Nat.toUInt8]

theorem decode_eq_ok_iff_utf8 (bytes : List UInt8) (characters : List Char) :
    decode bytes = .ok characters ↔ bytes = characters.flatMap String.utf8EncodeChar := by
  rw [decode_eq_ok_iff, bytesOf, funext encodeCode_eq_utf8EncodeChar]

end Utf8

namespace Session

/-! ### What a file holds -/

/-- The text in bytes: they are the UTF-8 of characters, and the ends of lines are made alike. -/
def HoldsText (bytes : List UInt8) (text : Text) : Prop :=
  ∃ characters : List Char, bytes = characters.flatMap String.utf8EncodeChar ∧
    text = Text.ofChars (Utf8.normaliseLines characters)

/-- What comes of reading the text in bytes as JSON. -/
def ReadsAs (bytes : List UInt8) (result : Except Json.Fault Value) : Prop :=
  ∃ text, HoldsText bytes text ∧ Json.parse text = result

theorem holdsText_iff (bytes : List UInt8) (text : Text) :
    HoldsText bytes text ↔
      ∃ characters, Utf8.decode bytes = .ok characters ∧
        text = Text.ofChars (Utf8.normaliseLines characters) := by
  simp only [HoldsText, Utf8.decode_eq_ok_iff_utf8]

theorem HoldsText.unique {bytes : List UInt8} {first second : Text}
    (hFirst : HoldsText bytes first) (hSecond : HoldsText bytes second) : first = second := by
  obtain ⟨characters, hDecode, rfl⟩ := (holdsText_iff bytes first).mp hFirst
  obtain ⟨others, hOthers, rfl⟩ := (holdsText_iff bytes second).mp hSecond
  rw [hDecode] at hOthers
  cases hOthers
  rfl

theorem HoldsText.isUnicode {bytes : List UInt8} {text : Text} (hText : HoldsText bytes text) :
    text.IsUnicode := by
  obtain ⟨characters, _, rfl⟩ := hText
  intro point hPoint
  obtain ⟨character, _, hCharacter⟩ := List.mem_map.mp hPoint
  exact ⟨character, hCharacter.symm⟩

theorem ReadsAs.unique {bytes : List UInt8} {first second : Except Json.Fault Value}
    (hFirst : ReadsAs bytes first) (hSecond : ReadsAs bytes second) : first = second := by
  obtain ⟨text, hText, rfl⟩ := hFirst
  obtain ⟨other, hOther, rfl⟩ := hSecond
  rw [hText.unique hOther]

/-! ### The outcome of loading a file -/

/-- What a fault of reading JSON becomes: one at a place is a fault of the specification, one of an
integer is not. -/
def readingFault (source : Text) : Json.Fault → Fault
  | .misplaced problem line column position =>
    .langSpec (.malformed source (.misplaced problem line column position))
  | .tooManyDigits count => .document (.tooManyDigits count)

section Files

variable {storage : Storage} {path : Storage.Path} {bytes : List UInt8}
  (hFile : storage.resolve path = .ok (.file bytes))

include hFile

theorem read_of_file : storage.read path = .ok bytes := by
  rw [Storage.read, hFile]

theorem exists_fault_of_undecodable (hUnread : ∀ result, ¬ ReadsAs bytes result) :
    ∃ fault, langSpecFile storage path = .error (.langSpec (.undecodable path.text fault)) := by
  cases hDecode : Utf8.decode bytes with
  | ok characters =>
      have hText := (holdsText_iff bytes _).mpr ⟨characters, hDecode, rfl⟩
      exact absurd ⟨_, hText, rfl⟩ (hUnread _)
  | error fault =>
      refine ⟨fault, ?_⟩
      rw [langSpecFile, langSpecDocument, read_of_file hFile]
      simp only [pure_bind, hDecode]
      rfl

theorem langSpecFile_of_readsAs {result : Except Json.Fault Value} (hRead : ReadsAs bytes result) :
    langSpecFile storage path = (result.mapError (readingFault path.text)).bind fun document =>
      (LangSpec.parse document path.text).mapError .langSpec := by
  obtain ⟨text, hText, hParse⟩ := hRead
  obtain ⟨characters, hDecode, rfl⟩ := (holdsText_iff bytes text).mp hText
  rw [langSpecFile, langSpecDocument, read_of_file hFile]
  simp only [pure_bind, hDecode, hParse]
  cases result with
  | error fault => cases fault <;> rfl
  | ok document =>
      show _ = (LangSpec.parse document path.text).mapError Fault.langSpec
      cases hSpec : LangSpec.parse document path.text with
      | ok spec =>
          simp only [pure_bind, hSpec]
          rfl
      | error fault =>
          simp only [pure_bind, hSpec]
          rfl

end Files

/-- How loading a specification from a file of these bytes ends. -/
structure SpecFileOutcome (bytes : List UInt8) (source : Text) (outcome : Except Fault LangSpec) :
    Prop where
  returns : (∃ spec, outcome = .ok spec) ↔
    ∃ document, ReadsAs bytes (.ok document) ∧
      ∀ violation, ¬ LangSpec.Violates document violation
  describes : ∀ spec, outcome = .ok spec →
    spec.source = source ∧
      ∃ document, ReadsAs bytes (.ok document) ∧ LangSpec.Describes document spec
  violates : (∃ cause, outcome = .error (.langSpec cause) ∧ cause.violationTexts ≠ []) ↔
    ∃ document violation, ReadsAs bytes (.ok document) ∧ LangSpec.Violates document violation
  faults : ∀ fault, outcome = .error fault →
    (∃ cause, fault = .langSpec cause) ∨ ∃ count, fault = .document (.tooManyDigits count)
  overlong : ∀ count, outcome = .error (.document (.tooManyDigits count)) ↔
    ReadsAs bytes (.error (.tooManyDigits count))

namespace SpecFileOutcome

variable {bytes : List UInt8} {source : Text}

theorem of_valid {document : Value} (hRead : ReadsAs bytes (.ok document))
    (hValid : LangSpec.violations document = []) :
    SpecFileOutcome bytes source (.ok (LangSpec.specOf document source)) where
  returns := by
    refine iff_of_true ⟨_, rfl⟩ ⟨document, hRead, fun violation hViolates => ?_⟩
    rw [← LangSpec.mem_violations_iff, hValid] at hViolates
    cases hViolates
  describes := by
    rintro spec ⟨⟩
    exact ⟨rfl, document, hRead, LangSpec.describes_specOf hValid source⟩
  violates := by
    refine iff_of_false ?_ ?_
    · rintro ⟨cause, hOutcome, _⟩
      cases hOutcome
    · rintro ⟨other, violation, hOther, hViolates⟩
      cases hRead.unique hOther
      rw [← LangSpec.mem_violations_iff, hValid] at hViolates
      cases hViolates
  faults := by
    intro fault hOutcome
    cases hOutcome
  overlong := by
    intro count
    refine iff_of_false ?_ fun hOther => ?_
    · intro hOutcome
      cases hOutcome
    · cases hRead.unique hOther

theorem of_invalid {document : Value} (hRead : ReadsAs bytes (.ok document))
    (hFound : LangSpec.violations document ≠ []) :
    SpecFileOutcome bytes source
      (.error (.langSpec (.invalid source (LangSpec.violations document)))) := by
  obtain ⟨violation, hMem⟩ := List.exists_mem_of_ne_nil _ hFound
  have hViolates := (LangSpec.mem_violations_iff document violation).mp hMem
  refine ⟨iff_of_false ?_ ?_, ?_, iff_of_true ?_ ⟨document, violation, hRead, hViolates⟩, ?_, ?_⟩
  · rintro ⟨spec, hOutcome⟩
    cases hOutcome
  · rintro ⟨other, hOther, hNone⟩
    cases hRead.unique hOther
    exact hNone violation hViolates
  · intro spec hOutcome
    cases hOutcome
  · refine ⟨_, rfl, ?_⟩
    rw [LangSpec.Fault.violationTexts, ne_eq, List.map_eq_nil_iff]
    exact hFound
  · rintro fault ⟨⟩
    exact .inl ⟨_, rfl⟩
  · intro count
    refine iff_of_false ?_ fun hOther => ?_
    · intro hOutcome
      cases hOutcome
    · cases hRead.unique hOther

section

variable (hUnread : ∀ document, ¬ ReadsAs bytes (.ok document))

include hUnread

/-- Bytes that hold no document give no specification and have no violations. -/
theorem of_fault {fault : Fault}
    (hTexts : ∀ cause, fault = .langSpec cause → cause.violationTexts = [])
    (hKinds : (∃ cause, fault = .langSpec cause) ∨
      ∃ count, fault = .document (.tooManyDigits count))
    (hOverlong : ∀ count, fault = .document (.tooManyDigits count) ↔
      ReadsAs bytes (.error (.tooManyDigits count))) :
    SpecFileOutcome bytes source (.error fault) where
  returns := by
    refine iff_of_false ?_ fun ⟨document, hRead, _⟩ => hUnread document hRead
    rintro ⟨spec, hOutcome⟩
    cases hOutcome
  describes := by
    intro spec hOutcome
    cases hOutcome
  violates := by
    refine iff_of_false ?_ fun ⟨document, _, hRead, _⟩ => hUnread document hRead
    rintro ⟨cause, hOutcome, hFound⟩
    exact hFound (hTexts cause (Except.error.inj hOutcome))
  faults := by
    rintro other ⟨⟩
    exact hKinds
  overlong := by
    intro count
    rw [Except.error.injEq]
    exact hOverlong count

theorem of_refused {cause : LangSpec.Fault} (hTexts : cause.violationTexts = [])
    (hShort : ∀ count, ¬ ReadsAs bytes (.error (.tooManyDigits count))) :
    SpecFileOutcome bytes source (.error (.langSpec cause)) := by
  refine of_fault hUnread ?_ (.inl ⟨cause, rfl⟩) fun count => iff_of_false ?_ (hShort count)
  · rintro _ ⟨⟩
    exact hTexts
  · intro hFault
    cases hFault

end

theorem of_overlong {count : Nat} (hRead : ReadsAs bytes (.error (.tooManyDigits count))) :
    SpecFileOutcome bytes source (.error (.document (.tooManyDigits count))) := by
  refine of_fault (fun document hOther => ?_) ?_ (.inr ⟨count, rfl⟩) fun other => ⟨?_, ?_⟩
  · cases hRead.unique hOther
  · intro cause hFault
    cases hFault
  · rintro ⟨⟩
    exact hRead
  · intro hOther
    cases hRead.unique hOther
    rfl

end SpecFileOutcome

theorem specFileOutcome_langSpecFile {storage : Storage} {path : Storage.Path}
    {bytes : List UInt8} (hFile : storage.resolve path = .ok (.file bytes)) :
    SpecFileOutcome bytes path.text (langSpecFile storage path) := by
  -- Bytes are read with one result or, if they are no text, with none.
  by_cases hText : ∃ result, ReadsAs bytes result
  · obtain ⟨result, hRead⟩ := hText
    rw [langSpecFile_of_readsAs hFile hRead]
    cases result with
    | ok document =>
        show SpecFileOutcome bytes path.text
          ((LangSpec.parse document path.text).mapError .langSpec)
        by_cases hValid : LangSpec.violations document = []
        · rw [LangSpec.parse_of_valid hValid]
          exact .of_valid hRead hValid
        · rw [LangSpec.parse_of_invalid hValid]
          exact .of_invalid hRead hValid
    | error fault =>
        have hUnread : ∀ document, ¬ ReadsAs bytes (.ok document) := by
          intro document hOther
          cases hRead.unique hOther
        show SpecFileOutcome bytes path.text (.error (readingFault path.text fault))
        cases fault with
        | misplaced problem line column position =>
            refine .of_refused hUnread rfl fun count hOther => ?_
            cases hRead.unique hOther
        | tooManyDigits count => exact .of_overlong hRead
  · obtain ⟨fault, hOutcome⟩ := exists_fault_of_undecodable hFile (not_exists.mp hText)
    rw [hOutcome]
    exact .of_refused (fun _ hRead => hText ⟨_, hRead⟩) rfl fun _ hRead => hText ⟨_, hRead⟩

theorem result_loadLangSpec (path : Storage.Path) (session : Session) :
    (perform (loadLangSpec (some path)) session).1 = langSpecFile session.storage path := by
  have hFind : session.findLangSpec (some path) = langSpecFile session.storage path := rfl
  rw [loadLangSpec, perform_bind, perform_ask, hFind]
  cases langSpecFile session.storage path with
  | error fault => rfl
  | ok spec => rw [proceed_ok, perform_bind, note, perform_change, proceed_ok, perform_pure]

/-- An obstacle among the files, not in the text of a path. -/
def obstacleIsOfFiles : Storage.Obstacle → Bool
  | .nullCharacter | .unencodable _ => false
  | .notFound | .alreadyThere | .notDirectory | .isDirectory | .nameTooLong => true

theorem exists_fault_of_unreadable {storage : Storage} {path : Storage.Path}
    {obstacle : Storage.Obstacle} (hFiles : obstacleIsOfFiles obstacle = true)
    (hRead : storage.read path = .error ⟨obstacle, path.text⟩) :
    ∃ cause, langSpecFile storage path = .error (.langSpec cause) ∧ cause.violationTexts = [] := by
  rw [langSpecFile, langSpecDocument, hRead]
  cases obstacle with
  | nullCharacter | unencodable => cases hFiles
  | notFound => exact ⟨.missing path.text, rfl, rfl⟩
  | alreadyThere | notDirectory | isDirectory | nameTooLong =>
      exact ⟨.unreadable path.text _, rfl, rfl⟩

/-- Loading a specification gives the one that the document in a file describes if it has no
violations, and fails with violations if it has some. All else is a fault of the specification
without violations, but for an integer that is too long to be read. -/
theorem loadLangSpec_outcomes (path : Storage.Path) (session : Session) :
    (∀ bytes, session.storage.resolve path = .ok (.file bytes) →
      SpecFileOutcome bytes path.text (perform (loadLangSpec (some path)) session).1 ∧
        ∀ count, (perform (loadLangSpec (some path)) session).1 =
            .error (.document (.tooManyDigits count)) →
          ∃ text, HoldsText bytes text ∧ text.HasLongInteger count) ∧
      (session.storage.resolve path = .ok .directory →
        ∃ cause, (perform (loadLangSpec (some path)) session).1 = .error (.langSpec cause) ∧
          cause.violationTexts = []) ∧
      ∀ obstacle, session.storage.resolve path = .error obstacle →
        obstacleIsOfFiles obstacle = true →
        ∃ cause, (perform (loadLangSpec (some path)) session).1 = .error (.langSpec cause) ∧
          cause.violationTexts = [] := by
  rw [result_loadLangSpec]
  refine ⟨fun bytes hFile => ?_, fun hDirectory => ?_, fun obstacle hAbsent hFiles => ?_⟩
  · have hOutcome := specFileOutcome_langSpecFile hFile
    refine ⟨hOutcome, fun count hFault => ?_⟩
    obtain ⟨text, hText, hParse⟩ := (hOutcome.overlong count).mp hFault
    exact ⟨text, hText, Json.hasLongInteger_of_parse hText.isUnicode hParse⟩
  · have hRead : session.storage.read path = .error ⟨.isDirectory, path.text⟩ := by
      rw [Storage.read, hDirectory]
    exact exists_fault_of_unreadable rfl hRead
  · have hRead : session.storage.read path = .error ⟨obstacle, path.text⟩ := by
      rw [Storage.read, hAbsent]
    exact exists_fault_of_unreadable hFiles hRead

/-- A specification without operations and a document that is none, beside a directory. -/
def withSpecs : Session :=
  startedWith [(["spec.json"], textFile "\x7b\"EvalMaxVersion\": 1,\r\n\"Ops\": []\x7d"),
    (["list.json"], textFile "[]"), (["specs"], .directory)]

/-- The document in a file of text, by whether it has violations. -/
theorem exists_document_of_text (text : String) (valid : Bool)
    (hParse : ((Json.parse (Text.ofChars (Utf8.normaliseLines text.toList))).toOption.map
      fun document => (LangSpec.unorderedViolations document).isEmpty) = some valid) :
    ∃ document, ReadsAs (Utf8.bytesOf text.toList) (.ok document) ∧
      (LangSpec.unorderedViolations document).isEmpty = valid := by
  cases hResult : Json.parse (Text.ofChars (Utf8.normaliseLines text.toList)) with
  | error fault =>
      rw [hResult] at hParse
      cases hParse
  | ok document =>
      rw [hResult] at hParse
      refine ⟨document, ⟨_, ?_, hResult⟩, Option.some.inj hParse⟩
      exact (holdsText_iff _ _).mpr ⟨text.toList, Utf8.decode_bytesOf _, rfl⟩

theorem small_spec_loaded_and_directory_refused :
    (∃ spec, (perform (loadLangSpec (some (.ofText "spec.json"))) withSpecs).1 = .ok spec) ∧
      (∃ cause, (perform (loadLangSpec (some (.ofText "list.json"))) withSpecs).1 =
        .error (.langSpec cause) ∧ cause.violationTexts ≠ []) ∧
      (∃ cause, (perform (loadLangSpec (some (.ofText "specs"))) withSpecs).1 =
        .error (.langSpec cause) ∧ cause.violationTexts = []) ∧
      ∃ cause, (perform (loadLangSpec (some (.ofText "absent.json"))) withSpecs).1 =
        .error (.langSpec cause) ∧ cause.violationTexts = [] := by
  refine ⟨?_, ?_, ?_, ?_⟩
  · obtain ⟨document, hRead, hValid⟩ := exists_document_of_text
      "\x7b\"EvalMaxVersion\": 1,\r\n\"Ops\": []\x7d" true (by decide +kernel)
    obtain ⟨hOutcome, _⟩ := (loadLangSpec_outcomes (.ofText "spec.json") withSpecs).1 _ rfl
    refine hOutcome.returns.mpr ⟨document, hRead, fun violation hViolates => ?_⟩
    rw [← LangSpec.mem_unorderedViolations_iff, List.isEmpty_iff.mp hValid] at hViolates
    cases hViolates
  · obtain ⟨document, hRead, hFound⟩ := exists_document_of_text "[]" false (by decide +kernel)
    obtain ⟨violation, hMem⟩ :=
      List.exists_mem_of_ne_nil _ (List.isEmpty_eq_false_iff.mp hFound)
    obtain ⟨hOutcome, _⟩ := (loadLangSpec_outcomes (.ofText "list.json") withSpecs).1 _ rfl
    refine hOutcome.violates.mpr ⟨document, violation, hRead, ?_⟩
    exact (LangSpec.mem_unorderedViolations_iff document violation).mp hMem
  · exact (loadLangSpec_outcomes (.ofText "specs") withSpecs).2.1 rfl
  · exact (loadLangSpec_outcomes (.ofText "absent.json") withSpecs).2.2 .notFound rfl rfl

/-! ### A file with one long integer -/

theorem holdsText_ones (count : Nat) :
    HoldsText (List.replicate count 0x31) (List.replicate count (.char '1')) := by
  have hOnly : ∀ character ∈ List.replicate count '1', character = '1' :=
    fun _ hMem => List.eq_of_mem_replicate hMem
  have hBytes : Utf8.bytesOf (List.replicate count '1') = List.replicate count 0x31 := by
    rw [Utf8.bytesOf_ascii, List.map_replicate]
    · rfl
    · intro character hMem
      rw [hOnly character hMem]
      decide
  have hLines : Utf8.normaliseLines (List.replicate count '1') = List.replicate count '1' := by
    have hNoReturn : '\r' ∉ List.replicate count '1' :=
      fun hMem => absurd (hOnly _ hMem) (by decide)
    have hPlain := Utf8.normaliseLines_plain_append hNoReturn []
    rw [List.append_nil] at hPlain
    exact hPlain.trans (List.append_nil _)
  refine (holdsText_iff _ _).mpr ⟨List.replicate count '1', ?_, ?_⟩
  · rw [← hBytes, Utf8.decode_bytesOf]
  · rw [hLines, Text.ofChars, List.map_replicate]

theorem readsAs_ones {count : Nat} (hLong : Numeral.digitLimit < count + 1) :
    ReadsAs (List.replicate (count + 1) 0x31) (.error (.tooManyDigits (count + 1))) := by
  have hDigits : ∀ point ∈ List.replicate count (CodePoint.char '1'),
      point.isAsciiDigit = true := by
    intro point hMem
    rw [List.eq_of_mem_replicate hMem]
    rfl
  have hLength : (List.replicate count (CodePoint.char '1')).length = count :=
    List.length_replicate
  refine ⟨_, holdsText_ones (count + 1), ?_⟩
  rw [List.replicate_succ, Json.parse_of_digits hDigits (hLength.symm ▸ hLong), hLength]

def withLongInteger : Session :=
  startedWith [(["spec.json"], .file (List.replicate 4301 0x31))]

theorem long_integer_escapes :
    withLongInteger.storage.resolve (.ofText "spec.json") =
        .ok (.file (List.replicate 4301 0x31)) ∧
      (∀ spec, (perform (loadLangSpec (some (.ofText "spec.json"))) withLongInteger).1 ≠
        .ok spec) ∧
      ∀ cause, (perform (loadLangSpec (some (.ofText "spec.json"))) withLongInteger).1 ≠
        .error (.langSpec cause) := by
  have hFile : withLongInteger.storage.resolve (.ofText "spec.json") =
      .ok (.file (List.replicate 4301 0x31)) := rfl
  rw [result_loadLangSpec, langSpecFile_of_readsAs hFile (readsAs_ones (by decide))]
  refine ⟨hFile, fun spec hOutcome => ?_, fun cause hOutcome => ?_⟩
  · cases hOutcome
  · cases hOutcome

end Session

end LogicSignature
