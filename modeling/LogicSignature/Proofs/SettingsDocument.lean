import LogicSignature.Proofs.MappingLines
import LogicSignature.Yaml.Reader

/-
The settings as a document.

Three texts under their names are written as a document of two sections. Whatever the texts are,
reading the document gives a graph with the same texts under the same names.
-/

namespace LogicSignature.Yaml

open Writer (Written Sheet)

/-! ### Names -/

instance (word : List Char) : Decidable (Lexer.IsKey word) :=
  decidable_of_iff
    ((word ≠ [] ∧ word.all (fun character => decide (Inline character)) = true ∧ ' ' ∉ word ∧
        word.head? ≠ some '#' ∧ word.getLast? ≠ some ':') ∧
      Writer.hasMark (Text.ofChars word) = false ∧
      (word.head? ≠ some '-' ∧ word.head? ≠ some '.') ∧ word.length ≤ Lexer.maxKeyLength)
    ⟨fun ⟨⟨hSome, hInline, hSpace, hStart, hEnd⟩, hMark, hUnmarked, hShort⟩ =>
        ⟨⟨hSome, fun character hMember =>
          of_decide_eq_true (List.all_eq_true.mp hInline character hMember), hSpace, hStart, hEnd⟩,
          hMark, hUnmarked, hShort⟩,
      fun ⟨⟨hSome, hInline, hSpace, hStart, hEnd⟩, hMark, hUnmarked, hShort⟩ =>
        ⟨⟨hSome, List.all_eq_true.mpr fun character hMember =>
          decide_eq_true (hInline character hMember), hSpace, hStart, hEnd⟩, hMark, hUnmarked,
          hShort⟩⟩

/-- A line with a name, and what follows it. -/
def nameLine (indent : Nat) (name : String) (rest : List Char) : List Char :=
  spaces indent ++ (name.toList ++ ':' :: rest)

namespace Writer

/-- A key that is written as it is, on one line with its content. -/
def IsName (name : String) : Prop :=
  Lexer.IsKey name.toList ∧ (form name).plain = true ∧ Plain.tag name = .text ∧
    runs name = [Text.ofString name] ∧ isSimpleKey [] (Outline.plainAtom (.text name)) = true

instance (name : String) : Decidable (IsName name) :=
  inferInstanceAs (Decidable (_ ∧ _))

/-- The sheet behind a name and its colon. -/
def behindName (indent : Nat) (sheet : Sheet) (name : String) : Sheet :=
  ((sheet.indentTo indent).inText.put name).mark ":" false false false

/-- Writes a text under its name. -/
def putText (indent : Nat) (sheet : Sheet) (name : String) (content : Text) : Sheet :=
  putScalar (behindName indent sheet name) (indent + indentStep) false .text content

section Entries

variable {name : String} {indent : Nat} {sheet : Sheet}

theorem putKey_name (hName : IsName name) (hWhite : sheet.whitespace = true) :
    putKey [] indent true (Outline.plainAtom (.text name)) sheet = sheet.inText.put name := by
  obtain ⟨⟨hWord, _⟩, hPlain, hTag, hRuns, _⟩ := hName
  have hLine : (Text.ofString name).any endsLine = false := any_endsLine_ofChars hWord.inline
  have hMultiline : (form name).multiline = false := hLine
  have hSome : Text.ofString name ≠ [] := mt List.map_eq_nil_iff.mp hWord.nonempty
  have hPut : putPlain sheet (indent + indentStep) false name = sheet.inText.put name := by
    rw [putPlain, hRuns, hWhite]
    · simp only [if_true, List.foldl_cons, List.foldl_nil, Bool.and_false, Bool.false_eq_true,
        if_false, hLine]
    · exact hSome
  refine Eq.trans ?_ hPut
  show putScalar sheet (indent + indentStep) true .text name = _
  rw [putScalar]
  simp only [hTag, hPlain, hMultiline]
  rfl

theorem putEntry_name (hName : IsName name) (hWhite : (sheet.indentTo indent).whitespace = true)
    (value : Put) :
    putEntry [] indent sheet (Outline.plainAtom (.text name), value) =
      value (some indent) true (behindName indent sheet name) := by
  rw [putEntry]
  simp only [hName.2.2.2.2, if_true, putKey_name hName hWhite]
  rfl

theorem whitespace_indentTo (hUsed : sheet.indention = false) :
    (sheet.indentTo indent).whitespace = true := by
  rw [Sheet.indentTo_of_used (.inl hUsed)]
  split <;> rfl

theorem putEntry_text (hName : IsName name) (hUsed : sheet.indention = false) (content : Text) :
    putEntry [] indent sheet
        (Outline.plainAtom (.text name), put [] (Outline.plainAtom (.text content))) =
      putText indent sheet name content :=
  putEntry_name hName (whitespace_indentTo hUsed) _

theorem indention_putText (content : Text) :
    (putText indent sheet name content).indention = false :=
  indention_putScalar rfl content

theorem text_behindName (hUsed : sheet.indention = false) :
    (behindName indent sheet name).text =
      sheet.text ++ Text.ofChars ('\n' :: nameLine indent name []) := by
  rw [behindName, Sheet.text_mark rfl, Sheet.text_put, Sheet.text_inText,
    Sheet.text_indentTo (.inl hUsed)]
  simp [Text.ofChars, Text.ofString, nameLine]

theorem text_behindName_blank (name : String) :
    (behindName 0 Sheet.blank name).text = Text.ofChars (nameLine 0 name []) := by
  rw [behindName, Sheet.text_mark rfl, Sheet.text_put, Sheet.text_inText]
  show [] ++ Text.ofString name ++ (":" : Text) = _
  simp [Text.ofChars, Text.ofString, nameLine]

/-- A text is written under its name, on a line of its own. -/
theorem written_putText (hUsed : sheet.indention = false)
    (hFold : indent + indentStep < foldColumn) (name : String) (content : Text) :
    ∃ isPlain written, Written (indent + indentStep) content isPlain written ∧
      (putText indent sheet name content).text =
        sheet.text ++ Text.ofChars ('\n' :: nameLine indent name (' ' :: written)) := by
  have hIndent : 0 < indent + indentStep := Nat.succ_pos _
  obtain ⟨isPlain, written, hText, hWritten⟩ := written_putScalar hIndent hFold
    (show (behindName indent sheet name).whitespace = false from rfl) content
  refine ⟨isPlain, written, hWritten, ?_⟩
  rw [putText, hText, text_behindName hUsed]
  simp [Text.ofChars, nameLine]

theorem put_mapping (first : Outline × Outline) (others : List (Outline × Outline))
    (indent : Option Nat) (underKey : Bool) (sheet : Sheet) :
    put [] (.mapping none .mapping (first :: others)) indent underKey sheet =
      (putEntries [] (first :: others)).foldl (putEntry [] (blockIndent indent)) sheet := rfl

end Entries

end Writer

/-! ### The text -/

/-- The settings as a record, in the order in which they are declared. -/
def settingsRecord (path format level : Text) : Content :=
  .record [("langspec", .record [("path", .text path)]),
    ("observability", .record [("log_level", .text level), ("log_format", .text format)])]

/-- A text under its name. -/
def textEntry (name : String) (content : Text) : Outline × Outline :=
  (Outline.plainAtom (.text name), Outline.plainAtom (.text content))

/-- The outline of the record, in the order of the names. -/
def settingsOutline (path format level : Text) : Outline :=
  .mapping none .mapping
    [(Outline.plainAtom (.text "langspec"), .mapping none .mapping [textEntry "path" path]),
      (Outline.plainAtom (.text "observability"),
        .mapping none .mapping [textEntry "log_format" format, textEntry "log_level" level])]

/-- The document of the settings, with the written forms of their texts. -/
def settingsText (path format level : List Char) : List Char :=
  nameLine 0 "langspec" ('\n' :: nameLine 2 "path" (' ' :: (path ++ '\n' ::
    nameLine 0 "observability" ('\n' :: nameLine 2 "log_format" (' ' :: (format ++ '\n' ::
      nameLine 2 "log_level" (' ' :: (level ++ ['\n']))))))))

/-- The names in the document. -/
def settingsNames : List String :=
  ["langspec", "path", "observability", "log_format", "log_level"]

theorem isName_of_mem : ∀ name ∈ settingsNames, Writer.IsName name := by
  decide +kernel

open Writer in
theorem put_settingsOutline (path format level : Text) :
    put [] (settingsOutline path format level) none false Sheet.blank =
      putText 2 (putText 2 (behindName 0 (putText 2 (behindName 0 Sheet.blank "langspec")
        "path" path) "observability") "log_format" format) "log_level" level := by
  rw [settingsOutline, put_mapping]
  simp only [putEntries, textEntry, List.foldl_cons, List.foldl_nil, blockIndent]
  rw [putEntry_name (isName_of_mem "langspec" (by decide)) rfl, put_mapping]
  simp only [putEntries, List.foldl_cons, List.foldl_nil, blockIndent, indentStep, Nat.zero_add]
  rw [putEntry_text (isName_of_mem "path" (by decide)) rfl,
    putEntry_name (isName_of_mem "observability" (by decide))
      (whitespace_indentTo (indention_putText path)), put_mapping]
  simp only [putEntries, List.foldl_cons, List.foldl_nil, blockIndent, indentStep, Nat.zero_add]
  rw [putEntry_text (isName_of_mem "log_format" (by decide)) rfl,
    putEntry_text (isName_of_mem "log_level" (by decide)) (indention_putText format)]

/-- Any three texts have a document. -/
theorem renderContent_settingsRecord (path format level : Text) :
    ∃ plainPath plainFormat plainLevel writtenPath writtenFormat writtenLevel,
      Written 4 path plainPath writtenPath ∧ Written 4 format plainFormat writtenFormat ∧
      Written 4 level plainLevel writtenLevel ∧
      renderContent (settingsRecord path format level) =
        .ok (Text.ofChars (settingsText writtenPath writtenFormat writtenLevel)) := by
  have hFold : 2 + Writer.indentStep < Writer.foldColumn := by decide
  let started := Writer.behindName 0 Sheet.blank "langspec"
  obtain ⟨plainPath, writtenPath, hPath, hPathText⟩ :=
    Writer.written_putText (show started.indention = false from rfl) hFold "path" path
  let observed := Writer.behindName 0 (Writer.putText 2 started "path" path) "observability"
  obtain ⟨plainFormat, writtenFormat, hFormat, hFormatText⟩ :=
    Writer.written_putText (show observed.indention = false from rfl) hFold "log_format" format
  obtain ⟨plainLevel, writtenLevel, hLevel, hLevelText⟩ := Writer.written_putText
    (@Writer.indention_putText "log_format" 2 observed format) hFold "log_level" level
  refine ⟨plainPath, plainFormat, plainLevel, writtenPath, writtenFormat, writtenLevel, hPath,
    hFormat, hLevel, ?_⟩
  have hOutline : Outline.ofContent (settingsRecord path format level) ⟨[], []⟩ =
      (settingsOutline path format level, ⟨[], []⟩) := rfl
  have hWritable : (settingsOutline path format level).isWritable = true := rfl
  have hText : write (settingsOutline path format level) [] =
      Text.ofChars (settingsText writtenPath writtenFormat writtenLevel) := by
    show ((Writer.put [] (settingsOutline path format level) none false Sheet.blank).indentTo
      0).text = _
    rw [put_settingsOutline, Sheet.text_indentTo (.inl (Writer.indention_putText level)),
      hLevelText, hFormatText, Writer.text_behindName (Writer.indention_putText path), hPathText,
      Writer.text_behindName_blank]
    simp only [Text.ofChars, settingsText, nameLine, List.map_append, List.map_cons,
      List.map_nil, List.append_assoc, List.cons_append, List.nil_append, List.replicate_zero]
  simp only [renderContent, hOutline, hWritable, hText, if_true]

/-! ### The tokens -/

/-- The tokens of the document. -/
def settingsTokens (path format level : Token) : List Token :=
  let name (text : String) : Token := .scalar text true
  [.blockMappingStart,
    .key, name "langspec", .value, .blockMappingStart,
      .key, name "path", .value, path, .blockEnd,
    .key, name "observability", .value, .blockMappingStart,
      .key, name "log_format", .value, format,
      .key, name "log_level", .value, level, .blockEnd,
    .blockEnd, .streamEnd]

section Reading

variable {path format level : Text} {plainPath plainFormat plainLevel : Bool}
  {writtenPath writtenFormat writtenLevel : List Char}
  (hPath : Written 4 path plainPath writtenPath)
  (hFormat : Written 4 format plainFormat writtenFormat)
  (hLevel : Written 4 level plainLevel writtenLevel)

include hPath hFormat hLevel

theorem run_settingsText (bound : Nat) :
    Lexer.run (bound + 14)
        (Lexer.start (Cursor.start (settingsText writtenPath writtenFormat writtenLevel) none)) =
      settingsTokens (.scalar path plainPath) (.scalar format plainFormat)
        (.scalar level plainLevel) := by
  have hKey (name : String) (hName : name ∈ settingsNames) : Lexer.IsKey name.toList :=
    (isName_of_mem name hName).1
  have hSpecKey := hKey "langspec" (by decide)
  have hPathKey := hKey "path" (by decide)
  have hObservedKey := hKey "observability" (by decide)
  have hFormatKey := hKey "log_format" (by decide)
  have hLevelKey := hKey "log_level" (by decide)
  have hStart : Lexer.AtLine [] (-1) [] 0 _
      (Lexer.start (Cursor.start (settingsText writtenPath writtenFormat writtenLevel) none)) :=
    Lexer.atLine_here (hSpecKey.startsLine _)
  obtain ⟨afterSpec, hSpec, hSpecLine⟩ := Lexer.reaches_header hSpecKey hStart (by decide)
    (hPathKey.startsLine _)
  obtain ⟨afterPath, hPathRead, hPathLine⟩ := Lexer.reaches_entry hPathKey hPath hSpecLine
    (by decide) (by decide) (by decide) (hObservedKey.startsLine _)
  have hPathLine : Lexer.AtLine _ 2 [0, -1] 0 _ afterPath := hPathLine
  obtain ⟨afterObserved, hObserved, hObservedLine⟩ := Lexer.reaches_header hObservedKey
    (hPathLine.close (by decide)) (by decide) (hFormatKey.startsLine _)
  obtain ⟨afterFormat, hFormatRead, hFormatLine⟩ := Lexer.reaches_entry hFormatKey hFormat
    hObservedLine (by decide) (by decide) (by decide) (hLevelKey.startsLine _)
  have hFormatLine : Lexer.AtLine _ 2 [0, -1] 2
      ("log_level".toList ++ ':' :: ' ' :: (writtenLevel ++ '\n' :: (spaces 0 ++ [])))
      afterFormat := hFormatLine
  obtain ⟨afterLevel, hLevelRead, hLevelLine⟩ := Lexer.reaches_entry hLevelKey hLevel hFormatLine
    (by decide) (by decide) (by decide) Lexer.startsLine_nil
  have hLevelLine : Lexer.AtLine _ 2 [0, -1] 0 _ afterLevel := hLevelLine
  have hAll := (((hSpec.trans hPathRead).trans hObserved).trans hFormatRead).trans hLevelRead
  rw [show bound + 14 = bound + 1 + (3 + (3 + (2 + (3 + 2)))) by omega, hAll,
    Lexer.run_of_atLine_end (hLevelLine.close (by decide))]
  rfl

end Reading

/-! ### The nodes -/

/-- A text among the nodes. -/
def textNode (content : Text) : Node := ⟨.text, .scalar content⟩

namespace Composer

section Mappings

variable {bound : Nat} {rest : List Token} {nodes : Nodes} {handles : List (String × String)}

theorem blockPart_text {content : Text} {isPlain : Bool}
    (hText : scalarTag none content isPlain = .text) :
    blockPart (bound + 2) ⟨.scalar content isPlain :: rest, nodes, [], handles⟩ =
      .ok (nodes.size, ⟨rest, nodes.push (textNode content), [], handles⟩) := by
  rw [textNode, ← hText]
  rfl

theorem node_mapping {context : Context} (hContext : context ≠ .flow)
    {entries : List (Nat × Nat)} {after : Composer}
    (hEntries : blockEntries bound ⟨rest, nodes.push ⟨.mapping, .mapping []⟩, [], handles⟩ =
      .ok (entries, after)) :
    node context (bound + 1) ⟨.blockMappingStart :: rest, nodes, [], handles⟩ =
      .ok (nodes.size, after.fill nodes.size (.mapping entries)) := by
  have hBlock : (context != .flow) = true := by simpa using hContext
  have hLead : lead ⟨.blockMappingStart :: rest, nodes, [], handles⟩ =
      .ok (none, none, ⟨.blockMappingStart :: rest, nodes, [], handles⟩) := rfl
  have hAdded : addAnchored ⟨rest, nodes, [], handles⟩ none
      ⟨collectionTag none .mapping, .mapping []⟩ =
      (nodes.size, ⟨rest, nodes.push ⟨.mapping, .mapping []⟩, [], handles⟩) := rfl
  rw [node]
  simp only [Composer.next, hLead]
  simp [drop, hAdded, hEntries, hBlock]

theorem blockPart_mapping {entries : List (Nat × Nat)} {after : Composer}
    (hEntries : blockEntries bound ⟨rest, nodes.push ⟨.mapping, .mapping []⟩, [], handles⟩ =
      .ok (entries, after)) :
    blockPart (bound + 2) ⟨.blockMappingStart :: rest, nodes, [], handles⟩ =
      .ok (nodes.size, after.fill nodes.size (.mapping entries)) := by
  rw [blockPart]
  exact node_mapping (by decide) hEntries

theorem blockEntries_end :
    blockEntries (bound + 1) ⟨.blockEnd :: rest, nodes, [], handles⟩ =
      .ok ([], ⟨rest, nodes, [], handles⟩) := rfl

/-- The entries of a mapping are read one after the other. -/
theorem blockEntries_cons {key : Text} {isPlain : Bool}
    (hKey : scalarTag none key isPlain = .text) {value : Nat} {others : List (Nat × Nat)}
    {after final : Composer}
    (hValue : blockPart (bound + 2) ⟨rest, nodes.push (textNode key), [], handles⟩ =
      .ok (value, after))
    (hOthers : blockEntries (bound + 2) after = .ok (others, final)) :
    blockEntries (bound + 3)
        ⟨.key :: .scalar key isPlain :: .value :: rest, nodes, [], handles⟩ =
      .ok ((nodes.size, value) :: others, final) := by
  rw [blockEntries]
  simp only [Composer.next, drop, List.drop_succ_cons, List.drop_zero, blockPart_text hKey, hValue,
    hOthers]

end Mappings

end Composer

/-- The nodes of the document. -/
def settingsNodes (path format level : Text) : Nodes :=
  #[⟨.mapping, .mapping [(1, 2), (5, 6)]⟩,
    textNode "langspec", ⟨.mapping, .mapping [(3, 4)]⟩, textNode "path", textNode path,
    textNode "observability", ⟨.mapping, .mapping [(7, 8), (9, 10)]⟩,
    textNode "log_format", textNode format, textNode "log_level", textNode level]

open Composer in
theorem compose_settingsTokens {path format level : Text} {plainPath plainFormat plainLevel : Bool}
    (hPath : scalarTag none path plainPath = .text)
    (hFormat : scalarTag none format plainFormat = .text)
    (hLevel : scalarTag none level plainLevel = .text) :
    compose (settingsTokens (.scalar path plainPath) (.scalar format plainFormat)
      (.scalar level plainLevel)) = .ok (some ⟨settingsNodes path format level, 0⟩) := by
  have hName (name : String) (hMember : name ∈ settingsNames) : scalarTag none name true = .text :=
    (isName_of_mem name hMember).2.2.1
  have hRoot : node .block 104 ⟨settingsTokens (.scalar path plainPath)
        (.scalar format plainFormat) (.scalar level plainLevel), #[], [], standardHandles⟩ =
      .ok (0, ⟨[.streamEnd], settingsNodes path format level, [], standardHandles⟩) :=
    node_mapping (by decide)
      (blockEntries_cons (hName "langspec" (by decide))
        (blockPart_mapping
          (blockEntries_cons (hName "path" (by decide)) (blockPart_text hPath) blockEntries_end))
        (blockEntries_cons (hName "observability" (by decide))
          (blockPart_mapping
            (blockEntries_cons (hName "log_format" (by decide)) (blockPart_text hFormat)
              (blockEntries_cons (hName "log_level" (by decide)) (blockPart_text hLevel)
                blockEntries_end)))
          blockEntries_end))
  have hDocument : document (settingsTokens (.scalar path plainPath) (.scalar format plainFormat)
      (.scalar level plainLevel)) standardHandles =
      .ok ⟨settingsNodes path format level, 0⟩ := by
    rw [document, show 4 * (settingsTokens (.scalar path plainPath) (.scalar format plainFormat)
      (.scalar level plainLevel)).length + 4 = 104 from rfl, hRoot]
    rfl
  rw [settingsTokens] at hDocument ⊢
  simp only [compose, hDocument]

/-! ### The data -/

/-- The graph of the document. -/
def settingsGraph (path format level : Text) : Graph :=
  ⟨#[.mapping [(1, 2), (3, 4)],
      .atom (.text "langspec"), .mapping [(5, 6)],
      .atom (.text "observability"), .mapping [(7, 8), (9, 10)],
      .atom (.text "path"), .atom (.text path),
      .atom (.text "log_format"), .atom (.text format),
      .atom (.text "log_level"), .atom (.text level)]⟩

theorem Builder.fill_mapping {builder : Builder} {task : Task} {entries : List (Nat × Nat)}
    (hNode : builder.nodes.get task.source = ⟨.mapping, .mapping entries⟩)
    (hMerge : builder.nodes.merge task.source = .ok builder.nodes) :
    builder.fill task = (builder.enterEntries entries []).map
      (fun filled => filled.2.finish task (.mapping filled.1)) := by
  have hEntries : builder.nodes.entries task.source = entries := by rw [Nodes.entries, hNode]
  simp only [fill, hNode, enterMapping, hMerge, hEntries]
  cases builder.enterEntries entries [] with
  | error _ => rfl
  | ok _ => rfl

/-- The builder with the outermost mapping in the graph. -/
def rootStage (nodes : Nodes) (waiting : List Task) : Builder :=
  ⟨nodes, #[.mapping []], #[some 0, none, none, none, none, none, none, none, none, none, none],
    waiting, none⟩

/-- The builder with the outermost mapping filled. -/
def groupsStage (nodes : Nodes) (waiting : List Task) : Builder :=
  ⟨nodes,
    #[.mapping [(1, 2), (3, 4)],
      .atom (.text "langspec"), .mapping [],
      .atom (.text "observability"), .mapping []],
    #[some 0, some 1, some 2, none, none, some 3, some 4, none, none, none, none], waiting, none⟩

/-- The builder with the first of the inner mappings filled. -/
def pathStage (nodes : Nodes) (path : Text) : Builder :=
  ⟨nodes,
    #[.mapping [(1, 2), (3, 4)],
      .atom (.text "langspec"), .mapping [(5, 6)],
      .atom (.text "observability"), .mapping [],
      .atom (.text "path"), .atom (.text path)],
    #[some 0, some 1, some 2, some 5, some 6, some 3, some 4, none, none, none, none], [], none⟩

/-- The builder with both inner mappings filled. -/
def finalStage (nodes : Nodes) (path format level : Text) : Builder :=
  ⟨nodes, (settingsGraph path format level).nodes,
    #[some 0, some 1, some 2, some 5, some 6, some 3, some 4, some 7, some 8, some 9, some 10], [],
    none⟩

theorem data_settingsNodes (path format level : Text) :
    Document.data ⟨settingsNodes path format level, 0⟩ =
      .ok (settingsGraph path format level, 0) := by
  generalize hNodes : settingsNodes path format level = nodes
  have hEnter : (Builder.start nodes).enter 0 = .ok (0, rootStage nodes [⟨0, 0⟩]) := by
    subst hNodes
    rfl
  have hRoot : (rootStage nodes []).fill ⟨0, 0⟩ =
      .ok (groupsStage nodes [⟨6, 4⟩, ⟨2, 2⟩]) := by
    subst hNodes
    exact (Builder.fill_mapping rfl rfl).trans rfl
  have hPath : (groupsStage nodes []).fill ⟨2, 2⟩ = .ok (pathStage nodes path) := by
    subst hNodes
    exact (Builder.fill_mapping rfl rfl).trans rfl
  have hLogging : (pathStage nodes path).fill ⟨6, 4⟩ =
      .ok (finalStage nodes path format level) := by
    subst hNodes
    exact (Builder.fill_mapping rfl rfl).trans rfl
  have hSize : nodes.size = 11 := by
    subst hNodes
    rfl
  simp only [rootStage, groupsStage, pathStage, finalStage] at hEnter hRoot hPath hLogging
  simp only [Document.data, hEnter, hSize, Builder.fillAll, List.reverse_cons, List.reverse_nil,
    List.nil_append, List.cons_append, hRoot, hPath, hLogging]

/-! ### Reading what was written -/

theorem scalarTag_of_written {indent : Nat} {content : Text} {isPlain : Bool}
    {written : List Char} (hWritten : Written indent content isPlain written) :
    Composer.scalarTag none content isPlain = .text := by
  cases hWritten with
  | plain _ _ hTag => exact hTag
  | quoted _ => rfl

theorem isAllowed_of_inline {character : Char} (hInline : Inline character ∨ character = '\n') :
    isAllowed character = true := by
  rcases hInline with ⟨hLow, hHigh⟩ | rfl
  · simp [isAllowed, hLow, hHigh]
  · rfl

theorem tokens_of_inline {text : List Char}
    (hText : ∀ character ∈ text, Inline character ∨ character = '\n') :
    tokens text none = Lexer.run (2 * text.length + 2) (Lexer.start (Cursor.start text none)) := by
  have hAllowed : allowedText text none = (text, none) := by
    have hNone : text.findIdx? (fun character => !isAllowed character) = none := by
      rw [List.findIdx?_eq_none_iff]
      intro character hMember
      rw [isAllowed_of_inline (hText character hMember)]
      rfl
    rw [allowedText, hNone]
  have hMark : (Cursor.start text none).isAt '\uFEFF' = false := by
    rw [Cursor.isAt, beq_eq_false_iff_ne]
    intro hStart
    have hMember : '\uFEFF' ∈ text := List.mem_of_getElem? hStart
    exact absurd (hText _ hMember) (by decide)
  simp only [tokens, hAllowed, hMark, Bool.false_eq_true, if_false]

theorem inline_nameLine {name : String} (hName : name ∈ settingsNames) {rest : List Char}
    (hRest : ∀ character ∈ rest, Inline character ∨ character = '\n') (indent : Nat) :
    ∀ character ∈ nameLine indent name rest, Inline character ∨ character = '\n' := by
  intro character hMember
  simp only [nameLine, List.mem_append, List.mem_cons] at hMember
  rcases hMember with hIndent | hWord | rfl | hLater
  · exact .inl (inline_of_mem_spaces hIndent)
  · exact .inl ((isName_of_mem name hName).1.isWord.inline character hWord)
  · exact .inl (by decide)
  · exact hRest character hLater

theorem inline_settingsText {path format level : List Char}
    (hPath : ∀ character ∈ path, Inline character ∨ character = '\n')
    (hFormat : ∀ character ∈ format, Inline character ∨ character = '\n')
    (hLevel : ∀ character ∈ level, Inline character ∨ character = '\n') :
    ∀ character ∈ settingsText path format level, Inline character ∨ character = '\n' := by
  have hText {written rest : List Char}
      (hWritten : ∀ character ∈ written, Inline character ∨ character = '\n')
      (hRest : ∀ character ∈ rest, Inline character ∨ character = '\n') :
      ∀ character ∈ ' ' :: (written ++ '\n' :: rest), Inline character ∨ character = '\n' := by
    rw [List.forall_mem_cons, List.forall_mem_append, List.forall_mem_cons]
    exact ⟨.inl (by decide), hWritten, .inr rfl, hRest⟩
  rw [settingsText]
  refine inline_nameLine (by decide) (List.forall_mem_cons.mpr ⟨.inr rfl, ?_⟩) 0
  refine inline_nameLine (by decide) (hText hPath ?_) 2
  refine inline_nameLine (by decide) (List.forall_mem_cons.mpr ⟨.inr rfl, ?_⟩) 0
  refine inline_nameLine (by decide) (hText hFormat ?_) 2
  exact inline_nameLine (by decide) (hText hLevel (List.forall_mem_nil _)) 2

/-- The document of any three texts is in printable characters, and reading it gives the texts
back. -/
theorem parse_renderContent (path format level : Text) :
    ∃ text, renderContent (settingsRecord path format level) = .ok (Text.ofChars text) ∧
      (∀ character ∈ text, Inline character ∨ character = '\n') ∧
      parse text none = .ok (settingsGraph path format level, 0) := by
  obtain ⟨plainPath, plainFormat, plainLevel, writtenPath, writtenFormat, writtenLevel, hPath,
    hFormat, hLevel, hText⟩ := renderContent_settingsRecord path format level
  have hInline := inline_settingsText hPath.inline hFormat.inline hLevel.inline
  have hLength : 6 ≤ (settingsText writtenPath writtenFormat writtenLevel).length := by
    have hName : "langspec".toList.length = 8 := by decide
    rw [settingsText, nameLine, List.length_append, List.length_append, hName]
    omega
  obtain ⟨bound, hBound⟩ := Nat.exists_eq_add_of_le
    (show 14 ≤ 2 * (settingsText writtenPath writtenFormat writtenLevel).length + 2 by omega)
  refine ⟨_, hText, hInline, ?_⟩
  rw [parse, tokens_of_inline hInline, hBound, Nat.add_comm, run_settingsText hPath hFormat hLevel,
    compose_settingsTokens (scalarTag_of_written hPath) (scalarTag_of_written hFormat)
      (scalarTag_of_written hLevel)]
  exact data_settingsNodes path format level

end LogicSignature.Yaml
