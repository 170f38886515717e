import LogicSignature.Proofs.DeclaredSettings

/-
The entries of a settings file as a list of verdicts, in file order: a content for a setting, or a
fault. Loading stores the contents that stand in front of the first fault and reports the fault, so
that all that a file does to the settings is told by its verdicts.
-/

namespace LogicSignature.Settings

/-- A content that is stored in a setting. -/
abbrev Write := Leaf × Content

/-- What an entry of a file comes to: a content that is stored, or the fault that ends the loading.
-/
abbrev Verdict := Except ApplyFault Write

def verdict (leaf : Leaf) (content : Content) : Verdict :=
  if leaf.admits content then .ok (leaf, content) else .error (.set (inadmissible content))

/-- The verdict about an entry that names no setting. Only a fault counts. -/
def asideVerdicts (graph : Graph) (name : Text) (place : Nat) : List Verdict :=
  (formFault? ⟨0, graph, 0⟩ name place).toList.map .error

/-- The verdict about an entry of a section, if there is one. -/
def leafVerdicts (graph : Graph) (group : Section) (entry : Nat × Nat) : List Verdict :=
  match graph.atomAt entry.1 with
  | .text name =>
    match group.leaf? name with
    | some leaf => [verdict leaf (Content.ofDatum ⟨0, graph, entry.2⟩)]
    | none => asideVerdicts graph name entry.2
  | other => [.error (.keyKind other.kindName)]

/-- The verdicts about an entry of a file: those of a section that it names, one after the other. -/
def entryVerdicts (graph : Graph) (entry : Nat × Nat) : List Verdict :=
  match graph.atomAt entry.1 with
  | .text name =>
    match Section.ofName? name, graph.node entry.2 with
    | some group, .mapping entries => entries.flatMap (leafVerdicts graph group)
    | _, _ => asideVerdicts graph name entry.2
  | other => [.error (.keyKind other.kindName)]

def fileVerdicts (graph : Graph) (entries : List (Nat × Nat)) : List Verdict :=
  entries.flatMap (entryVerdicts graph)

/-- The contents that stand in front of the first fault. -/
def writesIn : List Verdict → List Write
  | .ok write :: rest => write :: writesIn rest
  | _ => []

/-- The first fault. -/
def faultIn : List Verdict → Option ApplyFault
  | [] => none
  | .ok _ :: rest => faultIn rest
  | .error fault :: _ => some fault

/-- Stores several contents, one after the other. -/
def writeAll (settings : Settings) (writes : List Write) : Settings :=
  writes.foldl (fun current write => current.write write.1 write.2) settings

/-- The content that was stored in a setting last. -/
def lastTo (leaf : Leaf) (writes : List Write) : Option Content :=
  (writes.reverse.find? (fun write => write.1 = leaf)).map Prod.snd

/-! ### Several writes -/

theorem writeAll_append (settings : Settings) (first second : List Write) :
    settings.writeAll (first ++ second) = (settings.writeAll first).writeAll second :=
  List.foldl_append

theorem Declared.writeAll {settings : Settings} (hDeclared : settings.Declared)
    (writes : List Write) : (settings.writeAll writes).Declared := by
  induction writes generalizing settings with
  | nil => exact hDeclared
  | cons write rest ih => exact ih (hDeclared.write write.1 write.2)

theorem lastTo_append (leaf : Leaf) (first second : List Write) :
    lastTo leaf (first ++ second) = (lastTo leaf second).or (lastTo leaf first) := by
  simp only [lastTo, List.reverse_append, List.find?_append]
  cases second.reverse.find? (fun write => write.1 = leaf) <;> rfl

theorem lastTo_eq_none {leaf : Leaf} {writes : List Write}
    (hNone : ∀ content, (leaf, content) ∉ writes) : lastTo leaf writes = none := by
  rw [lastTo, Option.map_eq_none_iff, List.find?_eq_none]
  rintro ⟨other, content⟩ hMember hSame
  have hLeaf : other = leaf := by simpa using hSame
  exact hNone content (hLeaf ▸ List.mem_reverse.mp hMember)

/-- After several writes a setting stores the last content that went to it. -/
theorem stored_writeAll (settings : Settings) (writes : List Write) (leaf : Leaf) :
    (settings.writeAll writes).stored leaf = (lastTo leaf writes).or (settings.stored leaf) := by
  induction writes generalizing settings with
  | nil => rfl
  | cons write rest ih =>
      rw [← List.singleton_append, writeAll_append, ih, lastTo_append, Option.or_assoc]
      congr 1
      by_cases hSame : leaf = write.1
      · simp [writeAll, lastTo, hSame]
      · simp [writeAll, lastTo, hSame, Ne.symm hSame]

/-! ### The verdicts tell what loading does -/

theorem faultIn_append (first second : List Verdict) :
    faultIn (first ++ second) = (faultIn first).or (faultIn second) := by
  induction first with
  | nil => rfl
  | cons verdict rest ih =>
      cases verdict with
      | error fault => rfl
      | ok write => exact ih

theorem mem_of_faultIn {verdicts : List Verdict} {fault : ApplyFault}
    (hFault : faultIn verdicts = some fault) : .error fault ∈ verdicts := by
  induction verdicts with
  | nil => cases hFault
  | cons verdict rest ih =>
      cases verdict with
      | error found =>
          cases hFault
          exact List.mem_cons_self
      | ok write => exact List.mem_cons_of_mem _ (ih hFault)

theorem writesIn_append_of_none {first : List Verdict} (hSound : faultIn first = none)
    (second : List Verdict) : writesIn (first ++ second) = writesIn first ++ writesIn second := by
  induction first with
  | nil => rfl
  | cons verdict rest ih =>
      cases verdict with
      | error fault => cases hSound
      | ok write => exact congrArg (write :: ·) (ih hSound)

theorem writesIn_append_of_some {first : List Verdict} {fault : ApplyFault}
    (hFault : faultIn first = some fault) (second : List Verdict) :
    writesIn (first ++ second) = writesIn first := by
  induction first with
  | nil => cases hFault
  | cons verdict rest ih =>
      cases verdict with
      | error fault => rfl
      | ok write => exact congrArg (write :: ·) (ih hFault)

/-- What loading makes of settings, given the verdicts. -/
def obey (verdicts : List Verdict) (settings : Settings) : Settings × Option ApplyFault :=
  (settings.writeAll (writesIn verdicts), faultIn verdicts)

theorem obey_append_of_none {first : List Verdict} (hSound : faultIn first = none)
    (second : List Verdict) (settings : Settings) :
    obey (first ++ second) settings = obey second (settings.writeAll (writesIn first)) := by
  rw [obey, obey, writesIn_append_of_none hSound, faultIn_append, hSound, writeAll_append]
  rfl

theorem obey_append_of_some {first : List Verdict} {fault : ApplyFault}
    (hFault : faultIn first = some fault) (second : List Verdict) (settings : Settings) :
    obey (first ++ second) settings = (settings.writeAll (writesIn first), some fault) := by
  rw [obey, writesIn_append_of_some hFault, faultIn_append, hFault]
  rfl

/-- An entry beside the settings is passed over unless it is faulty in itself. -/
theorem eq_obey_aside {file : Datum} {name : Text} {place : Nat} {rest : List Verdict}
    {settings : Settings} {result : Settings × Option ApplyFault}
    (hSome : ∀ fault, formFault? file name place = some fault → result = (settings, some fault))
    (hNone : formFault? file name place = none → result = obey rest settings) :
    result = obey (asideVerdicts file.graph name place ++ rest) settings := by
  have hSame : formFault? ⟨0, file.graph, 0⟩ name place = formFault? file name place := rfl
  rw [asideVerdicts, hSame]
  cases hForm : formFault? file name place with
  | some fault =>
      rw [hSome fault hForm]
      rfl
  | none =>
      rw [hNone hForm]
      rfl

theorem ofDatum_eq_or_eq (graph : Graph) (place first second : Nat) :
    Content.ofDatum ⟨first, graph, place⟩ = Content.ofDatum ⟨second, graph, place⟩ ∨
      Content.ofDatum ⟨first, graph, place⟩ = .datum ⟨first, graph, place⟩ ∧
        Content.ofDatum ⟨second, graph, place⟩ = .datum ⟨second, graph, place⟩ := by
  simp only [Content.ofDatum, Datum.node]
  cases graph.node place with
  | atom content =>
      cases content with
      | bytes _ => exact .inr ⟨rfl, rfl⟩
      | date _ => exact .inr ⟨rfl, rfl⟩
      | moment _ => exact .inr ⟨rfl, rfl⟩
      | _ => exact .inl rfl
  | _ => exact .inr ⟨rfl, rfl⟩

theorem verdict_ofDatum (leaf : Leaf) (graph : Graph) (place first second : Nat) :
    verdict leaf (Content.ofDatum ⟨first, graph, place⟩) =
      verdict leaf (Content.ofDatum ⟨second, graph, place⟩) := by
  obtain hSame | ⟨hFirst, hSecond⟩ := ofDatum_eq_or_eq graph place first second
  · rw [hSame]
  · -- No setting admits such a datum, and the message does not show which file it comes from.
    rw [hFirst, hSecond]
    cases leaf <;> rfl

theorem applyLeaves_eq_obey {settings : Settings} (hDeclared : settings.Declared) (file : Datum)
    (group : Section) (entries : List (Nat × Nat)) :
    applyLeaves file group entries settings =
      obey (entries.flatMap (leafVerdicts file.graph group)) settings := by
  induction entries generalizing settings with
  | nil => rfl
  | cons entry rest ih =>
      obtain ⟨key, place⟩ := entry
      rw [List.flatMap_cons, applyLeaves, leafVerdicts]
      cases hKey : file.graph.atomAt key with
      | text name =>
          simp only
          cases hLeaf : group.leaf? name with
          | none =>
              refine eq_obey_aside (fun fault hFault => ?_) (fun hNone => ?_)
              · simp only [hFault]
              · simp only [hNone]
                exact ih hDeclared
          | some leaf =>
              simp only
              rw [verdict_ofDatum leaf file.graph place 0 file.serial, ← Datum.goTo, verdict]
              cases hAdmits : leaf.admits (Content.ofDatum (file.goTo place)) with
              | false =>
                  rw [set_of_not_admits hDeclared hAdmits]
                  rfl
              | true =>
                  rw [set_of_admits hDeclared hAdmits]
                  exact ih (hDeclared.write leaf _)
      | _ => rfl

/-- Loading the entries of a file stores the contents in front of the first fault. -/
theorem applyEntries_eq_obey {settings : Settings} (hDeclared : settings.Declared)
    (file : Datum) (entries : List (Nat × Nat)) :
    applyEntries file entries settings = obey (fileVerdicts file.graph entries) settings := by
  induction entries generalizing settings with
  | nil => rfl
  | cons entry rest ih =>
      obtain ⟨key, place⟩ := entry
      have hCons : fileVerdicts file.graph ((key, place) :: rest) =
          entryVerdicts file.graph (key, place) ++ fileVerdicts file.graph rest :=
        List.flatMap_cons
      rw [hCons, applyEntries, entryVerdicts]
      cases hKey : file.graph.atomAt key with
      | text name =>
          simp only
          cases hGroup : Section.ofName? name with
          | none =>
              refine eq_obey_aside (fun fault hFault => ?_) (fun hNone => ?_)
              · simp only [hFault]
              · simp only [hNone]
                exact ih hDeclared
          | some group =>
              cases hNode : file.graph.node place with
              | mapping entries =>
                  simp only
                  rw [applyLeaves_eq_obey hDeclared]
                  cases hFault : faultIn (entries.flatMap (leafVerdicts file.graph group)) with
                  | some fault => rw [obey_append_of_some hFault, obey, hFault]
                  | none =>
                      rw [obey_append_of_none hFault, obey, hFault]
                      exact ih (hDeclared.writeAll _)
              | _ =>
                  refine eq_obey_aside (fun fault hFault => ?_) (fun hNone => ?_)
                  · simp only [hFault]
                  · simp only [hNone]
                    exact ih hDeclared
      | _ => rfl

end LogicSignature.Settings
