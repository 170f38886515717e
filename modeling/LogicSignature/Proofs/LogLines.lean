import LogicSignature.Journal.Event
import LogicSignature.Proofs.LegibleValues

/-
The log in JSON: one object a line. Every value is written in printable ASCII, so that the line ends
of the log are those behind its events, whatever the events say. A line holds the fields of its
event that are not empty, and reads back as these fields just if every field is a value of JSON. An
event with an integer that has too many digits has no line.
-/

namespace LogicSignature

/-! ### Printable text -/

/-- A text in printable ASCII. -/
def Text.IsPrintable (text : Text) : Prop := ∀ point ∈ text, 32 ≤ point.code ∧ point.code ≤ 126

namespace Text

instance (text : Text) : Decidable text.IsPrintable :=
  inferInstanceAs (Decidable (∀ point ∈ text, 32 ≤ point.code ∧ point.code ≤ 126))

theorem isPrintable_nil : IsPrintable [] := List.forall_mem_nil _

theorem IsPrintable.cons {point : CodePoint} {rest : Text}
    (hPoint : 32 ≤ point.code ∧ point.code ≤ 126) (hRest : rest.IsPrintable) :
    IsPrintable (point :: rest) :=
  List.forall_mem_cons.mpr ⟨hPoint, hRest⟩

theorem IsPrintable.append {left right : Text} (hLeft : left.IsPrintable)
    (hRight : right.IsPrintable) : IsPrintable (left ++ right) :=
  List.forall_mem_append.mpr ⟨hLeft, hRight⟩

theorem isPrintable_join {parts : List Text} (hParts : ∀ part ∈ parts, IsPrintable part) :
    IsPrintable (join ", " parts) := by
  induction parts with
  | nil => decide
  | cons part rest ih =>
      have hRest := ih fun later hLater => hParts later (List.mem_cons_of_mem _ hLater)
      have hPart := hParts part List.mem_cons_self
      have hComma : IsPrintable ", " := by decide
      cases rest with
      | nil => rwa [join_singleton]
      | cons next others =>
          rw [join_cons_cons]
          exact hPart.append (hComma.append hRest)

theorem IsPrintable.isUnicode {text : Text} (hText : text.IsPrintable) : text.IsUnicode := by
  intro point hMember
  cases point with
  | char character => exact ⟨character, rfl⟩
  | half index =>
      have hCode := hText _ hMember
      rw [CodePoint.code_half] at hCode
      omega

theorem isPrintable_digits {characters : List Char} (hDigits : AllDigits characters) :
    IsPrintable (ofChars characters) := by
  intro point hMember
  obtain ⟨character, hCharacter, rfl⟩ := List.mem_map.mp hMember
  obtain ⟨hLow, hHigh⟩ := Char.isDigit_iff_toNat.mp (hDigits character hCharacter)
  change 48 ≤ character.toNat at hLow
  change character.toNat ≤ 57 at hHigh
  rw [CodePoint.code_char]
  omega

theorem isPrintable_signedDecimal (number : Int) : IsPrintable (signedDecimal number) := by
  cases number with
  | ofNat natural => exact isPrintable_digits (allDigits_toDigits natural)
  | negSucc natural =>
      have hSign : IsPrintable "-" := by decide
      exact hSign.append (isPrintable_digits (allDigits_toDigits _))

end Text

namespace Json

theorem isPrintable_codeUnitEscape {unit : Nat} (hUnit : unit < 0x10000) :
    (codeUnitEscape unit).IsPrintable := by
  obtain ⟨a, b, c, d, hA, hB, hC, hD, -, hDigits⟩ := exists_unitDigits hUnit
  have hDigit : ∀ digit < 16, 32 ≤ (CodePoint.char (Nat.digitChar digit)).code ∧
      (CodePoint.char (Nat.digitChar digit)).code ≤ 126 := by decide
  have hMark : Text.IsPrintable "\\u" := by decide
  rw [codeUnitEscape, hDigits]
  apply hMark.append
  exact .cons (hDigit a hA) (.cons (hDigit b hB) (.cons (hDigit c hC) (.cons (hDigit d hD)
    Text.isPrintable_nil)))

theorem Escape.isPrintable {point : CodePoint} {text : Text} (hEscape : Escape point text) :
    text.IsPrintable := by
  cases hEscape with
  | plain hLow hHigh => exact .cons ⟨hLow, hHigh⟩ Text.isPrintable_nil
  | letter _ hPrintable => exact .cons (by decide) (.cons hPrintable Text.isPrintable_nil)
  | unit hCode => exact isPrintable_codeUnitEscape hCode
  | pair hHigh hLow =>
      exact (isPrintable_codeUnitEscape (lt_of_isHigh hHigh)).append
        (isPrintable_codeUnitEscape (lt_of_isLow hLow))

theorem isPrintable_quote (content : Text) : (quote content).IsPrintable := by
  have hQuote : Text.IsPrintable [.char '\x22'] := by decide
  have hContent : Text.IsPrintable (content.flatMap escapePoint) := by
    intro point hPoint
    obtain ⟨written, _, hMember⟩ := List.mem_flatMap.mp hPoint
    exact (escape_escapePoint written).isPrintable point hMember
  exact hQuote.append (hContent.append hQuote)

theorem isPrintable_exponentText (exponent : Int) : (exponentText exponent).IsPrintable := by
  obtain ⟨digits, hDigits, -, -, hText⟩ := exists_exponentDigits exponent
  rw [hText]
  apply Text.IsPrintable.cons (by decide)
  apply Text.IsPrintable.cons
  · split <;> decide
  · exact Text.isPrintable_digits hDigits

theorem isPrintable_layout {digits : List Char} (hDigits : AllDigits digits) (point : Int) :
    (Binary64.layout digits point).IsPrintable := by
  have hDot : Text.IsPrintable "." := by decide
  have hBefore : Text.IsPrintable "0." := by decide
  have hBehind : Text.IsPrintable ".0" := by decide
  unfold Binary64.layout
  split
  · split
    · exact hBefore.append (Text.isPrintable_digits ((allDigits_zeros _).append hDigits))
    · split
      · exact (Text.isPrintable_digits (hDigits.append (allDigits_zeros _))).append hBehind
      · refine (Text.IsPrintable.append (Text.isPrintable_digits ?_) hDot).append
          (Text.isPrintable_digits ?_)
        · exact fun character hMember => hDigits character (List.mem_of_mem_take hMember)
        · exact fun character hMember => hDigits character (List.mem_of_mem_drop hMember)
  · have hExponent := isPrintable_exponentText (point - 1)
    rw [exponentText, List.append_assoc] at hExponent
    simp only [List.append_assoc]
    apply Text.IsPrintable.append _ hExponent
    split
    · decide
    · exact Text.isPrintable_digits hDigits
    · rename_i digit rest _
      exact .cons (Text.isPrintable_digits hDigits _ List.mem_cons_self) (.cons (by decide)
        (Text.isPrintable_digits fun character hMember =>
          hDigits character (List.mem_cons_of_mem _ hMember)))

theorem isPrintable_realText (number : Binary64) : (realText number).IsPrintable := by
  cases number with
  | undefined => decide
  | infinite negative => cases negative <;> decide
  | finite negative mantissa exponent =>
      have hSign : Text.IsPrintable (if negative then "-" else "") := by cases negative <;> decide
      change (Binary64.text (.finite negative mantissa exponent)).IsPrintable
      rw [Binary64.text]
      split
      · exact hSign.append (by decide)
      · apply hSign.append
        apply isPrintable_layout
        obtain ⟨count, hZeros⟩ := Binary64.exists_dropped_zeros
          (Nat.toDigits 10 (Binary64.shortest mantissa exponent).digits)
        intro character hMember
        apply allDigits_toDigits (Binary64.shortest mantissa exponent).digits
        rw [hZeros]
        exact List.mem_append_left _ hMember

mutual

theorem isPrintable_compact (item : Value) : (compact item).IsPrintable := by
  cases item with
  | null => decide
  | boolean flag => cases flag <;> decide
  | integer number => exact Text.isPrintable_signedDecimal number
  | real number => exact isPrintable_realText number
  | text content => exact isPrintable_quote content
  | list items =>
      have hOpening : Text.IsPrintable "[" := by decide
      have hClosing : Text.IsPrintable "]" := by decide
      rw [compact]
      exact (hOpening.append (Text.isPrintable_join (isPrintable_compactItems items))).append
        hClosing
  | record fields =>
      have hOpening : Text.IsPrintable "\x7b" := by decide
      have hClosing : Text.IsPrintable "\x7d" := by decide
      rw [compact]
      exact (hOpening.append (Text.isPrintable_join (isPrintable_compactFields fields))).append
        hClosing

theorem isPrintable_compactItems (items : List Value) :
    ∀ part ∈ compactItems items, part.IsPrintable := by
  cases items with
  | nil => exact List.forall_mem_nil _
  | cons item rest =>
      rw [compactItems]
      exact List.forall_mem_cons.mpr ⟨isPrintable_compact item, isPrintable_compactItems rest⟩

theorem isPrintable_compactFields (fields : List (Text × Value)) :
    ∀ part ∈ compactFields fields, part.IsPrintable := by
  match fields with
  | [] => exact List.forall_mem_nil _
  | (name, item) :: rest =>
      have hColon : Text.IsPrintable ": " := by decide
      rw [compactFields]
      exact List.forall_mem_cons.mpr
        ⟨((isPrintable_quote name).append hColon).append (isPrintable_compact item),
          isPrintable_compactFields rest⟩

end

/-- The values that read back as themselves are the legible ones. -/
theorem parse_compact_iff {item : Value} : parse (compact item) = .ok item ↔ Legible item := by
  constructor
  · exact legible_of_parse (isPrintable_compact item).isUnicode
  · exact parse_compact

/-- What texts of characters hold are the values of JSON that can be written. -/
theorem expressible_and_writable_iff {item : Value} :
    Expressible item ∧ item.Writable ↔
      ∃ input : Text, input.IsUnicode ∧ parse input = .ok item := by
  rw [← legible_iff]
  constructor
  · intro hLegible
    exact ⟨compact item, (isPrintable_compact item).isUnicode, parse_compact hLegible⟩
  · rintro ⟨input, hInput, hRead⟩
    exact legible_of_parse hInput hRead

end Json

/-! ### Lines -/

theorem Text.splitOn_append {separator : CodePoint} {line : Text} (hAbsent : separator ∉ line)
    (rest : Text) :
    splitOn separator (line ++ separator :: rest) = line :: splitOn separator rest := by
  induction line with
  | nil => rw [List.nil_append, splitOn, if_pos (beq_self_eq_true separator)]
  | cons point others ih =>
      obtain ⟨hPoint, hOthers⟩ := not_or.mp (mt List.mem_cons.mpr hAbsent)
      rw [List.cons_append, splitOn, if_neg (by simpa using Ne.symm hPoint), ih hOthers]

theorem Text.splitOn_lines {lines : List Text} (hLines : ∀ line ∈ lines, line.IsPrintable) :
    splitOn (.char '\n') (lines.flatMap fun line => line ++ "\n") = lines ++ [[]] := by
  induction lines with
  | nil => rfl
  | cons line rest ih =>
      have hAbsent : CodePoint.char '\n' ∉ line := by
        intro hMember
        exact absurd (hLines line List.mem_cons_self _ hMember) (by decide)
      have hRest := ih fun later hLater => hLines later (List.mem_cons_of_mem _ hLater)
      have hEnd : Text.ofString "\n" = [.char '\n'] := rfl
      rw [hEnd] at hRest ⊢
      rw [List.flatMap_cons, List.append_assoc, List.singleton_append, splitOn_append hAbsent,
        hRest, List.cons_append]

namespace Journal

theorem isEmptyField_iff {field : Value} :
    isEmptyField field = true ↔ field = .null ∨ field = .text [] ∨ field = .record [] := by
  cases field with
  | text content => simp [isEmptyField]
  | record fields => simp [isEmptyField]
  | _ => simp [isEmptyField]

namespace Event

variable (event : Event)

theorem mem_fields_iff {entry : Text × Value} :
    entry ∈ event.fields ↔ entry ∈ event.allFields ∧
      entry.2 ≠ .null ∧ entry.2 ≠ .text [] ∧ entry.2 ≠ .record [] := by
  rw [fields, List.mem_filter, Bool.not_eq_true', Bool.eq_false_iff, ne_eq, isEmptyField_iff,
    not_or, not_or]

theorem names_allFields : event.allFields.map Prod.fst = requiredNames ++ optionalNames := rfl

/-- A field that is left out is empty, so nothing more is asked of the fields that are not than of
all of them. -/
theorem forall_fields_iff {property : Value → Prop} (hNull : property .null)
    (hText : property (.text [])) (hRecord : property (.record [])) :
    (∀ entry ∈ event.fields, property entry.2) ↔ ∀ entry ∈ event.allFields, property entry.2 := by
  constructor
  · intro hFields entry hEntry
    by_cases hEmpty : isEmptyField entry.2 = true
    · rcases isEmptyField_iff.mp hEmpty with hField | hField | hField <;> rwa [hField]
    · exact hFields entry (List.mem_filter.mpr ⟨hEntry, by simpa using hEmpty⟩)
  · intro hAll entry hEntry
    exact hAll entry (List.mem_of_mem_filter hEntry)

theorem writable_fields_iff :
    (Value.record event.fields).Writable ↔ ∀ entry ∈ event.allFields, entry.2.Writable :=
  Value.writable_record_iff.trans
    (event.forall_fields_iff .null (.text []) (.record (List.forall_mem_nil _)))

theorem expressible_fields_iff :
    Json.Expressible (.record event.fields) ↔
      ∀ entry ∈ event.allFields, Json.Expressible entry.2 := by
  have hSublist : event.fields.Sublist event.allFields := List.filter_sublist
  have hNothing : Json.Expressible (.record []) :=
    .record List.nodup_nil (List.forall_mem_nil _) (List.forall_mem_nil _)
  rw [← event.forall_fields_iff .null (.text .nil) hNothing]
  constructor
  · rintro (_ | _ | _ | _ | _ | _ | ⟨_, _, hValues⟩)
    exact hValues
  · apply Json.Expressible.record
    · apply List.Nodup.sublist (hSublist.map Prod.fst)
      rw [names_allFields]
      decide
    · intro entry hEntry
      have hName := List.mem_map_of_mem (f := Prod.fst) (hSublist.subset hEntry)
      rw [names_allFields] at hName
      have hJoined : ∀ name ∈ requiredNames ++ optionalNames, name.IsJoined := by decide
      exact hJoined entry.1 hName

theorem json_of_writable (hWritable : ∀ entry ∈ event.allFields, entry.2.Writable) :
    event.json = .ok (Json.compact (.record event.fields)) := by
  have hShowable := (Data.isShowable_ofValue_iff _).mpr (event.writable_fields_iff.mpr hWritable)
  simp only [json, hShowable, if_true]

theorem json_of_not_writable (hWritable : ¬ ∀ entry ∈ event.allFields, entry.2.Writable) :
    event.json = .error .tooLong := by
  have hShowable : (Data.ofValue (.record event.fields)).isShowable = false := by
    rw [Bool.eq_false_iff, ne_eq, Data.isShowable_ofValue_iff, event.writable_fields_iff]
    exact hWritable
  simp only [json, hShowable, Bool.false_eq_true, if_false]

/-- The line of an event: a printable text that is not empty, and that reads back as the fields of
the event that are not empty just if its fields are values of JSON. -/
structure HasLine (line : Text) : Prop where
  written : event.json = .ok line
  nonempty : line ≠ []
  printable : line.IsPrintable
  reads : Json.parse line = .ok (.record event.fields) ↔
    ∀ entry ∈ event.allFields, Json.Expressible entry.2

theorem hasLine_of_writable (hWritable : ∀ entry ∈ event.allFields, entry.2.Writable) :
    event.HasLine (Json.compact (.record event.fields)) where
  written := event.json_of_writable hWritable
  nonempty := by
    rw [Json.compact]
    exact List.cons_ne_nil _ _
  printable := Json.isPrintable_compact _
  reads := by
    rw [Json.parse_compact_iff, Json.legible_iff, event.writable_fields_iff,
      event.expressible_fields_iff, and_iff_left hWritable]

end Event

/-- The log is one object a line. If the integers of the events can be written, the lines are those
of the events, in order, and nothing stands behind the last line end; an event with an integer that
cannot be written has no line. A line holds the fields of its event that are neither null nor the
empty text nor the empty record, and reads back as these just if the fields are values of JSON.
Those that can be written are the values that texts of characters hold, and every text of characters
is one. -/
theorem log_lines_read_back (events : List Event) :
    ((∀ event ∈ events, ∀ entry ∈ event.allFields, entry.2.Writable) →
      ∃ lines, List.Forall₂ Event.HasLine events lines ∧
        Text.splitOn (.char '\n') (lines.flatMap fun line => line ++ "\n") = lines ++ [[]]) ∧
    (∀ event ∈ events,
      ((¬ ∀ entry ∈ event.allFields, entry.2.Writable) → event.json = .error .tooLong) ∧
      event.fields.Sublist event.allFields ∧
      ∀ entry, entry ∈ event.fields ↔ entry ∈ event.allFields ∧
        entry.2 ≠ .null ∧ entry.2 ≠ .text [] ∧ entry.2 ≠ .record []) ∧
    (∀ item : Value, Json.Expressible item ∧ item.Writable ↔
      ∃ input : Text, input.IsUnicode ∧ Json.parse input = .ok item) ∧
    ∀ content : Text, content.IsUnicode → Json.Expressible (.text content) := by
  refine ⟨?_, ?_, ?_, ?_⟩
  · intro hWritable
    refine ⟨events.map fun event => Json.compact (.record event.fields), ?_, ?_⟩
    · rw [List.forall₂_map_right_iff, List.forall₂_same]
      exact fun event hEvent => event.hasLine_of_writable (hWritable event hEvent)
    · apply Text.splitOn_lines
      intro line hLine
      obtain ⟨event, _, rfl⟩ := List.mem_map.mp hLine
      exact Json.isPrintable_compact _
  · intro event _
    refine ⟨event.json_of_not_writable, List.filter_sublist, ?_⟩
    intro entry
    exact event.mem_fields_iff
  · intro item
    exact Json.expressible_and_writable_iff
  · intro content hContent
    exact .text hContent.isJoined

/-- An event that took no time, with a line break, quotes, control characters and characters outside
ASCII in its message. -/
def brokenLineEvent : Event :=
  { timestamp := .text "2024-01-01T00:00:00+00:00"
    level := .text "error"
    logger := .text "lsigcheck.validator"
    message := .text "first \"line\"\nsecond \\ \x07 \x7f é 😀"
    duration := .integer 0
    context := .record [("pc", .integer 3), ("", .list [.real (Binary64.zero true), .null])] }

theorem broken_line_event_reads_back :
    brokenLineEvent.fields.map Prod.fst =
      ["timestamp", "level", "logger", "message", "duration_ms", "context"].map Text.ofString ∧
    ∃ line, brokenLineEvent.json = .ok line ∧
      Text.splitOn (.char '\n') (line ++ "\n" ++ (line ++ "\n")) = [line, line, []] ∧
      Json.parse line = .ok (.record brokenLineEvent.fields) := by
  have hItems : Json.Legible (.list [.real (Binary64.zero true), .null]) := by
    apply Json.Legible.list
    simp only [List.forall_mem_cons]
    exact ⟨.real (Binary64.isProper_zero true), .null, List.forall_mem_nil _⟩
  have hContext : Json.Legible brokenLineEvent.context := by
    apply Json.Legible.record
    · decide
    · decide
    · simp only [List.forall_mem_cons]
      exact ⟨.integer (by decide +kernel), hItems, List.forall_mem_nil _⟩
  have hFields : ∀ entry ∈ brokenLineEvent.allFields, Json.Legible entry.2 := by
    simp only [Event.allFields, List.forall_mem_cons]
    exact ⟨.text (by decide), .text (by decide), .text (by decide), .text (by decide),
      .text (by decide), .text (by decide), .integer (by decide +kernel), .text (by decide),
      hContext, .null, List.forall_mem_nil _⟩
  have hWritable : ∀ event ∈ [brokenLineEvent, brokenLineEvent],
      ∀ entry ∈ event.allFields, entry.2.Writable := by
    simp only [List.forall_mem_cons]
    exact ⟨fun entry hEntry => (hFields entry hEntry).writable,
      fun entry hEntry => (hFields entry hEntry).writable, List.forall_mem_nil _⟩
  obtain ⟨lines, hLines, hSplit⟩ :=
    (log_lines_read_back [brokenLineEvent, brokenLineEvent]).1 hWritable
  obtain ⟨line, rest, hLine, hRest, rfl⟩ := List.forall₂_cons_left_iff.mp hLines
  obtain ⟨next, last, hNext, hLast, rfl⟩ := List.forall₂_cons_left_iff.mp hRest
  obtain rfl : last = [] := List.forall₂_nil_left_iff.mp hLast
  obtain rfl : next = line := by
    have hSame := hNext.written
    rw [hLine.written] at hSame
    exact (Except.ok.inj hSame).symm
  refine ⟨by decide, next, hLine.written, ?_, ?_⟩
  · rwa [List.flatMap_cons, List.flatMap_cons, List.flatMap_nil, List.append_nil] at hSplit
  · exact hLine.reads.mpr fun entry hEntry => (hFields entry hEntry).expressible

/-- An event with the least integer that has too many digits in its context. -/
def longIntegerEvent : Event :=
  { timestamp := .text "2024-01-01T00:00:00+00:00"
    level := .text "info"
    logger := .text "lsigcheck.cli.a"
    message := .text "m"
    context := .record [("n", .integer Numeral.writableBound)] }

/-- All fields are values of JSON, but there is no line. -/
theorem long_integer_event_has_no_line :
    (∀ entry ∈ longIntegerEvent.allFields, Json.Expressible entry.2) ∧
      longIntegerEvent.json = .error .tooLong := by
  have hContext : Json.Expressible longIntegerEvent.context := by
    apply Json.Expressible.record
    · decide
    · decide
    · simp only [List.forall_mem_cons]
      exact ⟨.integer _, List.forall_mem_nil _⟩
  have hLong : ¬ longIntegerEvent.context.Writable := by
    intro hContext
    exact Value.not_writable_writableBound
      (Value.writable_record_iff.mp hContext _ List.mem_cons_self)
  refine ⟨?_, ?_⟩
  · simp only [Event.allFields, List.forall_mem_cons]
    exact ⟨.text (by decide), .text (by decide), .text (by decide), .text (by decide),
      .text (by decide), .text (by decide), .null, .text (by decide), hContext, .null,
      List.forall_mem_nil _⟩
  · apply Event.json_of_not_writable
    intro hWritable
    exact hLong (hWritable ("context", longIntegerEvent.context) (by simp [Event.allFields]))

end Journal

end LogicSignature
