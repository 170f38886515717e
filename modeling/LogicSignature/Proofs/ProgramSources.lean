import Mathlib.Data.List.TakeWhile
import LogicSignature.Proofs.HexText
import LogicSignature.Proofs.EncodedText
import LogicSignature.Proofs.SurroundedText
import LogicSignature.Proofs.SettingsLoading
import LogicSignature.Session.Checking

/-
The ways of giving a program: marked hexadecimal text, bare hexadecimal text, a file of hexadecimal
text and a file of bytes. Bare text is looked for as a file first, and a name has at most 255 bytes,
so bare text of more than 127 bytes is refused although it is no file.
-/

namespace LogicSignature

/-! ### Names in the working directory -/

theorem Text.splitOn_of_not_mem {separator : CodePoint} {text : Text} (hAbsent : separator ∉ text) :
    splitOn separator text = [text] := by
  induction text with
  | nil => rfl
  | cons point rest ih =>
      obtain ⟨hPoint, hRest⟩ := not_or.mp (mt List.mem_cons.mpr hAbsent)
      rw [splitOn, if_neg (by simpa using Ne.symm hPoint), ih hRest]

theorem Text.mem_of_mem_splitOn {separator point : CodePoint} {text part : Text}
    (hPart : part ∈ splitOn separator text) (hPoint : point ∈ part) : point ∈ text := by
  induction text generalizing part with
  | nil =>
      rw [splitOn, List.mem_singleton] at hPart
      exact absurd (hPart ▸ hPoint) List.not_mem_nil
  | cons first rest ih =>
      rw [splitOn] at hPart
      split at hPart
      · rcases List.mem_cons.mp hPart with rfl | hPart
        · cases hPoint
        · exact List.mem_cons_of_mem _ (ih hPart hPoint)
      · cases hParts : splitOn separator rest with
        | nil =>
            rw [hParts, List.mem_singleton] at hPart
            rw [hPart, List.mem_singleton] at hPoint
            exact hPoint ▸ List.mem_cons_self
        | cons head others =>
            rw [hParts] at hPart ih
            rcases List.mem_cons.mp hPart with rfl | hPart
            · rcases List.mem_cons.mp hPoint with rfl | hPoint
              · exact List.mem_cons_self
              · exact List.mem_cons_of_mem _ (ih List.mem_cons_self hPoint)
            · exact List.mem_cons_of_mem _ (ih (List.mem_cons_of_mem _ hPart) hPoint)

namespace Storage

theorem Path.ofText_name {name : Text} (hNonempty : name ≠ []) (hSlash : .char '/' ∉ name)
    (hDot : .char '.' ∉ name) : Path.ofText name = ⟨.working, [name]⟩ := by
  have hAnchor : Path.anchorOf name = .working := by
    cases name with
    | nil => rfl
    | cons first rest =>
        unfold Path.anchorOf
        split <;> simp_all
  have hNotDot : name ≠ Text.ofString "." := by
    rintro rfl
    exact hDot (by decide)
  rw [Path.ofText, Path.components, Text.splitOn_of_not_mem hSlash, hAnchor,
    List.filter_cons_of_pos (by simp [hNonempty, hNotDot]), List.filter_nil]

theorem Path.text_name (name : Text) : Path.text ⟨.working, [name]⟩ = name := by
  simp [Path.text, Text.join]

theorem directory_working (storage : Storage) :
    storage.entry? storage.working = some .directory := by
  unfold entry?
  exact if_pos (List.isPrefixOf_iff_prefix.mpr (List.prefix_refl _))

theorem walk_cons {storage : Storage} {place : List Name} {name : Name}
    (hEntry : storage.entry? place = some .directory) (hUpward : name ≠ upward)
    (rest : List Name) :
    storage.walk (name :: rest) place =
      if maxNameBytes < name.length then .error .nameTooLong
      else storage.walk rest (place ++ [name]) := by
  rw [walk, hEntry]
  simp only [beq_iff_eq, hUpward, if_false]

/-- A suffix starts with a dot of the name. -/
theorem Path.suffix_eq_nil {path : Path} (hDot : .char '.' ∉ path.name) : path.suffix = [] := by
  have hTail : path.name.reverse.takeWhile (fun point => point != .char '.') =
      path.name.reverse := by
    apply List.takeWhile_eq_self_iff.mpr
    intro point hPoint
    rw [bne_iff_ne]
    rintro rfl
    exact hDot (List.mem_reverse.mp hPoint)
  simp only [suffix, hTail, List.drop_length]

theorem Path.mem_of_mem_name {source : Text} {point : CodePoint}
    (hPoint : point ∈ (Path.ofText source).name) : point ∈ source := by
  have hParts : ∀ part ∈ Path.components source, point ∈ part → point ∈ source :=
    fun part hPart => Text.mem_of_mem_splitOn (List.mem_filter.mp hPart).1
  change point ∈ (Path.components source).getLastD [] at hPoint
  rw [List.getLastD_eq_getLast?] at hPoint
  cases hLast : (Path.components source).getLast? with
  | none =>
      rw [hLast] at hPoint
      cases hPoint
  | some part =>
      rw [hLast] at hPoint
      exact hParts part (List.mem_of_getLast? hLast) hPoint

theorem resolve_name (storage : Storage) {name : Text} {bytes : Name}
    (hBytes : Utf8.encodeName name = .ok bytes) (hZero : 0 ∉ bytes) (hUpward : bytes ≠ upward) :
    storage.resolve ⟨.working, [name]⟩ =
      if maxNameBytes < bytes.length then .error .nameTooLong
      else storage.walk [] (storage.working ++ [bytes]) := by
  have hName : nameBytes name = bytes := by rw [nameBytes, hBytes]
  rw [resolve, Path.text_name, hBytes]
  simp only [List.map_cons, List.map_nil, hName, List.contains_iff_mem, hZero, if_false]
  rw [walk_cons storage.directory_working hUpward]
  by_cases hLong : pathBytesLimit ≤ bytes.length
  · have hName : maxNameBytes < bytes.length := Nat.lt_of_lt_of_le (by decide) hLong
    rw [if_pos hLong, if_pos hName]
  · rw [if_neg hLong]

theorem resolve_working (storage : Storage) : storage.resolve ⟨.working, []⟩ = .ok .directory := by
  have hText : Utf8.encodeName (Path.text ⟨.working, []⟩) = .ok [46] := rfl
  rw [resolve, hText]
  change storage.walk [] storage.working = _
  rw [walk, directory_working]

/-- A text whose name is short enough and that is no file is told so. -/
theorem fileExists_eq_false {storage : Storage} {path : Path}
    (hAbsent : ∀ content, storage.resolve path ≠ .ok (.file content))
    (hShort : storage.resolve path ≠ .error .nameTooLong) :
    storage.fileExists path = .ok false := by
  rw [fileExists, probe]
  cases hEntry : storage.resolve path with
  | ok entry =>
      cases entry with
      | file content => exact absurd hEntry (hAbsent content)
      | directory => rfl
      | sink => rfl
  | error obstacle =>
      cases obstacle <;> first | rfl | exact absurd hEntry hShort

end Storage

namespace Hex

/-! ### Hexadecimal text as a name -/

theorem encodeName_encode (bytes : List UInt8) :
    Utf8.encodeName (encode bytes) = .ok (Utf8.bytesOf (digits bytes)) := by
  rw [encode_eq_ofChars, Utf8.encodeName, Utf8.encodeWith_ofChars]

theorem bytesOf_digits (bytes : List UInt8) :
    Utf8.bytesOf (digits bytes) =
      (digits bytes).map fun character => character.toNat.toUInt8 := by
  have hAscii : ∀ digit < 16, (Nat.digitChar digit).toNat < 0x80 := by decide
  apply Utf8.bytesOf_ascii
  intro character hMember
  obtain ⟨digit, hDigit, rfl⟩ := exists_digit_of_mem_digits hMember
  exact hAscii digit hDigit

theorem length_bytesOf_digits (bytes : List UInt8) :
    (Utf8.bytesOf (digits bytes)).length = 2 * bytes.length := by
  rw [bytesOf_digits, List.length_map, ← length_encode, encode_eq_ofChars, Text.ofChars,
    List.length_map]

theorem not_mem_bytesOf_digits {byte : UInt8}
    (hOther : ∀ digit < 16, (Nat.digitChar digit).toNat.toUInt8 ≠ byte) (bytes : List UInt8) :
    byte ∉ Utf8.bytesOf (digits bytes) := by
  rw [bytesOf_digits]
  intro hMember
  obtain ⟨_, hDigit, hSame⟩ := List.mem_map.mp hMember
  obtain ⟨digit, hSmall, rfl⟩ := exists_digit_of_mem_digits hDigit
  exact hOther digit hSmall hSame

theorem ofText_encode {bytes : List UInt8} (hNonempty : bytes ≠ []) :
    Storage.Path.ofText (encode bytes) = ⟨.working, [encode bytes]⟩ := by
  have hText : encode bytes ≠ [] := by
    intro hNone
    have hLength := length_encode bytes
    rw [hNone, List.length_nil] at hLength
    exact hNonempty (List.length_eq_zero_iff.mp (by omega))
  exact Storage.Path.ofText_name hText (char_not_mem_encode (by decide) bytes)
    (char_not_mem_encode (by decide) bytes)

/-- Two digits for a byte, so that the bound for a name is reached between 127 and 128 bytes. -/
theorem resolve_encode (storage : Storage) {bytes : List UInt8} (hNonempty : bytes ≠ []) :
    storage.resolve (.ofText (encode bytes)) =
      if 127 < bytes.length then .error .nameTooLong
      else storage.walk [] (storage.working ++ [Utf8.bytesOf (digits bytes)]) := by
  have hUpward : Utf8.bytesOf (digits bytes) ≠ Storage.upward := by
    intro hSame
    have hDot : 46 ∈ Storage.upward := by decide
    exact not_mem_bytesOf_digits (by decide) bytes (hSame ▸ hDot)
  have hBound : Storage.maxNameBytes < 2 * bytes.length ↔ 127 < bytes.length := by
    rw [Storage.maxNameBytes]
    omega
  rw [ofText_encode hNonempty, storage.resolve_name (encodeName_encode bytes)
    (not_mem_bytesOf_digits (by decide) bytes) hUpward, length_bytesOf_digits]
  simp only [hBound]

theorem resolve_encode_ne_tooLong (storage : Storage) {bytes : List UInt8}
    (hShort : bytes.length ≤ 127) :
    storage.resolve (.ofText (encode bytes)) ≠ .error .nameTooLong := by
  by_cases hNonempty : bytes = []
  · have hWorking : storage.resolve (.ofText (encode [])) = .ok .directory :=
      storage.resolve_working
    rw [hNonempty, hWorking]
    nofun
  · rw [resolve_encode storage hNonempty, if_neg (Nat.not_lt.mpr hShort)]
    unfold Storage.walk
    split <;> nofun

end Hex

namespace Session

/-! ### Reading a program -/

theorem readHex_eq_ok {text : Text} {bytes : List UInt8} (hParse : Hex.parse? text = some bytes)
    (what : Text) : readHex text what = .ok bytes := by
  rw [readHex, hParse]

theorem readProgram_marked (storage : Storage) {source : Text}
    (hMarked : Hex.isMarked source = true) :
    readProgram storage source = readHex source "program" := by
  rw [readProgram, if_pos hMarked]

theorem readProgram_absent {storage : Storage} {source : Text}
    (hMarked : Hex.isMarked source = false)
    (hAbsent : storage.fileExists (.ofText source) = .ok false) :
    readProgram storage source = readHex source "program" := by
  rw [readProgram, if_neg (by simp [hMarked])]
  simp only [hAbsent]

theorem readProgram_file {storage : Storage} {source : Text} {content : List UInt8}
    (hMarked : Hex.isMarked source = false)
    (hFile : storage.resolve (.ofText source) = .ok (.file content)) :
    readProgram storage source =
      if (Storage.Path.ofText source).suffix = ".hex" then
        hexText content >>= fun text => readHex text "program"
      else .ok content := by
  have hExists : storage.fileExists (.ofText source) = .ok true := by
    rw [Storage.fileExists, Storage.probe, hFile]
    rfl
  have hRead : storage.read (.ofText source) = .ok content := by
    rw [Storage.read, hFile]
  rw [readProgram, if_neg (by simp [hMarked])]
  simp only [hExists, hRead, beq_iff_eq]
  rfl

theorem readProgram_tooLong {storage : Storage} {source : Text}
    (hMarked : Hex.isMarked source = false)
    (hLong : storage.resolve (.ofText source) = .error .nameTooLong) :
    readProgram storage source =
      .error (.storage ⟨.nameTooLong, (Storage.Path.ofText source).text⟩) := by
  have hExists : storage.fileExists (.ofText source) =
      .error ⟨.nameTooLong, (Storage.Path.ofText source).text⟩ := by
    rw [Storage.fileExists, Storage.probe, hLong]
  rw [readProgram, if_neg (by simp [hMarked])]
  simp only [hExists]
  rfl

/-! ### Files of hexadecimal text -/

theorem hexText_of_surrounded {body : List Char} {text : Text} {content : List UInt8}
    (hBody : ∀ character ∈ body, (CodePoint.char character).isBlank = false)
    (hText : Text.Surrounded (Text.ofChars body) text) (hEncode : Utf8.encode text = .ok content) :
    hexText content = .ok (Text.ofChars body) := by
  obtain ⟨characters, rfl, rfl⟩ := Utf8.exists_characters_of_encode hEncode
  rw [hexText, Utf8.decode_bytesOf]
  refine congrArg Except.ok (Text.strip_of_surrounded
    (Utf8.normaliseLines_surrounded hBody hText) ?_)
  intro point hPoint
  obtain ⟨character, hCharacter, rfl⟩ := List.mem_map.mp hPoint
  exact hBody character hCharacter

/-- Blanks and a mark in a file of hexadecimal text make no difference. -/
theorem hexText_bind_readHex {program content : List UInt8} {text : Text}
    (hEncode : Utf8.encode text = .ok content)
    (hText : Text.Surrounded (Hex.encode program) text ∨
      Text.Surrounded ("0x" ++ Hex.encode program) text) (what : Text) :
    (hexText content >>= fun given => readHex given what) = .ok program := by
  have hDigits : ∀ character ∈ Hex.digits program, (CodePoint.char character).isBlank = false := by
    have hDigit : ∀ digit < 16, (CodePoint.char (Nat.digitChar digit)).isBlank = false := by decide
    intro character hMember
    obtain ⟨digit, hSmall, rfl⟩ := Hex.exists_digit_of_mem_digits hMember
    exact hDigit digit hSmall
  rw [Hex.encode_eq_ofChars] at hText
  rcases hText with hBare | hMarked
  · rw [hexText_of_surrounded hDigits hBare hEncode, ← Hex.encode_eq_ofChars]
    exact readHex_eq_ok (Hex.parse?_encode program) what
  · have hBody : ∀ character ∈ '0' :: 'x' :: Hex.digits program,
        (CodePoint.char character).isBlank = false :=
      List.forall_mem_cons.mpr ⟨by decide, List.forall_mem_cons.mpr ⟨by decide, hDigits⟩⟩
    have hRead := Hex.parse?_marked program
    rw [Hex.encode_eq_ofChars] at hRead
    rw [hexText_of_surrounded hBody hMarked hEncode]
    exact readHex_eq_ok hRead what

/-- A marked name is never looked for, and no text with a dot is hexadecimal. -/
theorem readProgram_marked_hexFile (storage : Storage) {source : Text}
    (hMarked : Hex.isMarked source = true)
    (hSuffix : (Storage.Path.ofText source).suffix = ".hex") :
    readProgram storage source = .error (.hex "program" source) := by
  have hDot : .char '.' ∈ source := by
    by_contra hDot
    rw [Storage.Path.suffix_eq_nil (mt Storage.Path.mem_of_mem_name hDot)] at hSuffix
    cases hSuffix
  have hParse : Hex.parse? source = none := by
    rw [Hex.parse?, Hex.unmarked, if_pos hMarked]
    exact Hex.pairs_eq_none_of_mem (Hex.mem_drop_of_isMarked hMarked hDot (by decide)) (by decide)
      (by decide)
  rw [readProgram_marked storage hMarked, readHex, hParse]

theorem perform_loadProgram (source : Text) (session : Session) :
    perform (loadProgram source) session = (readProgram session.storage source, session) :=
  perform_ask _ session

/-- Bare text is looked for as a file first, and the name of such a file would be too long. -/
theorem loadProgram_bare_tooLong {program : List UInt8} (hLong : 127 < program.length)
    (session : Session) :
    perform (loadProgram (Hex.encode program)) session =
      (.error (.storage ⟨.nameTooLong, Hex.encode program⟩), session) := by
  have hNonempty : program ≠ [] := by
    rintro rfl
    cases hLong
  have hResolve : session.storage.resolve (.ofText (Hex.encode program)) =
      .error .nameTooLong := by
    rw [Hex.resolve_encode _ hNonempty, if_pos hLong]
  rw [perform_loadProgram, readProgram_tooLong (Hex.isMarked_encode program) hResolve,
    Hex.ofText_encode hNonempty, Storage.Path.text_name]

/-- What the ways of giving a program give, each by itself. -/
structure SourcesAgree (program : List UInt8) (session : Session) : Prop where
  marked : perform (loadProgram ("0x" ++ Hex.encode program)) session = (.ok program, session)
  bare : program.length ≤ 127 →
    (∀ content, session.storage.resolve (.ofText (Hex.encode program)) ≠ .ok (.file content)) →
    perform (loadProgram (Hex.encode program)) session = (.ok program, session)
  bareTooLong : 127 < program.length →
    perform (loadProgram (Hex.encode program)) session =
      (.error (.storage ⟨.nameTooLong, Hex.encode program⟩), session)
  hexFile : ∀ source text content, Hex.isMarked source = false →
    (Storage.Path.ofText source).suffix = ".hex" →
    session.storage.resolve (.ofText source) = .ok (.file content) →
    Utf8.encode text = .ok content →
    Text.Surrounded (Hex.encode program) text ∨
      Text.Surrounded ("0x" ++ Hex.encode program) text →
    perform (loadProgram source) session = (.ok program, session)
  byteFile : ∀ source, Hex.isMarked source = false →
    (Storage.Path.ofText source).suffix ≠ ".hex" →
    session.storage.resolve (.ofText source) = .ok (.file program) →
    perform (loadProgram source) session = (.ok program, session)
  /-- A marked name is taken for text, whatever file it names. -/
  markedName : ∀ source, Hex.isMarked source = true →
    (Storage.Path.ofText source).suffix = ".hex" →
    perform (loadProgram source) session = (.error (.hex "program" source), session)

/-- All ways of giving a program agree, but for bare text of more than 127 bytes. -/
theorem program_sources_agree (program : List UInt8) (session : Session) :
    SourcesAgree program session where
  marked := by
    have hMarked : Hex.isMarked ("0x" ++ Hex.encode program) = true := rfl
    rw [perform_loadProgram, readProgram_marked _ hMarked,
      readHex_eq_ok (Hex.parse?_marked program)]
  bare hShort hAbsent := by
    have hBound : session.storage.resolve (.ofText (Hex.encode program)) ≠ .error .nameTooLong :=
      Hex.resolve_encode_ne_tooLong _ hShort
    rw [perform_loadProgram, readProgram_absent (Hex.isMarked_encode program)
      (Storage.fileExists_eq_false hAbsent hBound), readHex_eq_ok (Hex.parse?_encode program)]
  bareTooLong hLong := loadProgram_bare_tooLong hLong session
  hexFile source text content hMarked hSuffix hFile hEncode hText := by
    rw [perform_loadProgram, readProgram_file hMarked hFile, if_pos hSuffix,
      hexText_bind_readHex hEncode hText]
  byteFile source hMarked hSuffix hFile := by
    rw [perform_loadProgram, readProgram_file hMarked hFile, if_neg hSuffix]
  markedName source hMarked hSuffix := by
    rw [perform_loadProgram, readProgram_marked_hexFile _ hMarked hSuffix]

/-- A program of two bytes as hexadecimal text and as bytes. -/
def withTwoPrograms : Session :=
  startedWith [(["prog.hex"], textFile "\r\n 0x0122\n"), (["prog.bin"], .file [0x01, 0x22])]

theorem sources_of_two_bytes :
    perform (loadProgram "0x0122") withTwoPrograms = (.ok [0x01, 0x22], withTwoPrograms) ∧
      perform (loadProgram "0122") withTwoPrograms = (.ok [0x01, 0x22], withTwoPrograms) ∧
      perform (loadProgram "prog.hex") withTwoPrograms = (.ok [0x01, 0x22], withTwoPrograms) ∧
      perform (loadProgram "prog.bin") withTwoPrograms = (.ok [0x01, 0x22], withTwoPrograms) := by
  have hAgree := program_sources_agree [0x01, 0x22] withTwoPrograms
  have hAbsent : withTwoPrograms.storage.resolve (.ofText (Hex.encode [0x01, 0x22])) =
      .error .notFound := rfl
  have hText : Text.Surrounded ("0x" ++ Hex.encode [0x01, 0x22]) "\r\n 0x0122\n" :=
    ⟨"\r\n ", "\n", by decide, by decide, by decide⟩
  refine ⟨hAgree.marked, hAgree.bare (by decide) ?_, ?_, ?_⟩
  · rw [hAbsent]
    nofun
  · exact hAgree.hexFile "prog.hex" _ _ rfl (by decide) rfl rfl (.inr hText)
  · exact hAgree.byteFile "prog.bin" rfl (by decide) rfl

theorem bare_text_of_128_bytes_refused :
    (List.replicate 128 (0 : UInt8)).length ≤ 1000 ∧
      (∀ content, (startedWith []).storage.resolve
        (.ofText (Hex.encode (List.replicate 128 0))) ≠ .ok (.file content)) ∧
      perform (loadProgram (Hex.encode (List.replicate 128 0))) (startedWith []) ≠
        (.ok (List.replicate 128 0), startedWith []) := by
  have hLong : 127 < (List.replicate 128 (0 : UInt8)).length := by
    rw [List.length_replicate]
    decide
  refine ⟨?_, ?_, ?_⟩
  · rw [List.length_replicate]
    decide
  · rw [Hex.resolve_encode _ (List.ne_nil_of_length_pos (Nat.zero_lt_of_lt hLong)), if_pos hLong]
    nofun
  · rw [loadProgram_bare_tooLong hLong]
    nofun

end Session

end LogicSignature
