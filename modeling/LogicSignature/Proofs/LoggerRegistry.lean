import LogicSignature.Session.Logging

/-
The journal by layer and name.

A journal knows two things about the component of a layer and a name: the sink that its records go
to, and the component that is kept for it. Both are looked up under dotted texts. No layer has a dot
in its name, so two components share such a text only if they have the same layer and the same name,
and what is done to one of them leaves the others alone.
-/

namespace LogicSignature

namespace Journal

variable (journal : Journal) (layer other : Layer) (name otherName : Text) (sink : Sink)

/-! ### Dotted texts -/

theorem componentKey_inj {layer other : Layer} {name otherName : Text} :
    componentKey layer name = componentKey other otherName ↔ layer = other ∧ name = otherName := by
  constructor
  · intro hSame
    unfold componentKey at hSame
    -- Two different layers differ in a letter that stands in front of the first dot.
    cases layer <;> cases other <;> simp_all [Layer.name, Text.ofString, Text.ofChars]
  · rintro ⟨rfl, rfl⟩
    rfl

theorem sinkName_eq (layer : Layer) (name : Text) :
    sinkName layer name = "lsigcheck." ++ componentKey layer name := by
  rw [sinkName, componentKey, List.append_assoc, List.append_assoc, List.append_assoc]

theorem sinkName_inj {layer other : Layer} {name otherName : Text} :
    sinkName layer name = sinkName other otherName ↔ layer = other ∧ name = otherName := by
  rw [sinkName_eq, sinkName_eq, List.append_cancel_left_eq, componentKey_inj]

/-! ### What is known about a component -/

/-- The sink of a component. -/
def sinkOf : Option Sink := journal.sinks.lookup (sinkName layer name)

/-- The component that is kept for a layer and a name. -/
def kept : Option Component := journal.components.lookup (componentKey layer name)

/-- Every component is kept under its own key. -/
def Keyed : Prop :=
  ∀ entry ∈ journal.components, entry.1 = componentKey entry.2.layer entry.2.name

theorem renew_eq (old new : Sink) : old.renew new = new := by
  have hOwn : old.writers.filter (fun format => !ownFormats.contains format) = [] :=
    List.filter_eq_nil_iff.mpr fun format _ => by cases format <;> decide
  rw [Sink.renew, hOwn, List.nil_append]

theorem renewedSink_eq (key : Text) : journal.renewedSink key sink = sink := by
  unfold renewedSink
  cases journal.sinks.lookup key with
  | none => rfl
  | some old => exact renew_eq old sink

/-- The journal with a new sink for a component. -/
def furnish : Journal := (journal.construct layer name sink).2

/-- The component that is made next. -/
def nextComponent : Component := ⟨journal.nextSerial, name, layer⟩

theorem construct_eq :
    journal.construct layer name sink =
      (journal.nextComponent layer name, journal.furnish layer name sink) := rfl

theorem sinkOf_furnish :
    (journal.furnish layer name sink).sinkOf other otherName =
      if other = layer ∧ otherName = name then some sink else journal.sinkOf other otherName := by
  have hSinks : (journal.furnish layer name sink).sinks =
      Value.setEntry (sinkName layer name) sink journal.sinks :=
    congrArg (Value.setEntry (sinkName layer name) · journal.sinks)
      (journal.renewedSink_eq sink (sinkName layer name))
  rw [sinkOf, hSinks, Value.lookup_setEntry]
  simp only [beq_iff_eq, sinkName_inj]
  rfl

theorem kept_furnish :
    (journal.furnish layer name sink).kept other otherName = journal.kept other otherName := rfl

theorem sinkOf_keep (key : Text) (component : Component) :
    (journal.keep key component).sinkOf layer name = journal.sinkOf layer name := rfl

theorem kept_keep (component : Component) :
    (journal.keep (componentKey layer name) component).kept other otherName =
      if other = layer ∧ otherName = name then some component
      else journal.kept other otherName := by
  rw [kept, keep, Value.lookup_setEntry]
  simp only [beq_iff_eq, componentKey_inj]
  rfl

/-! ### Making components anew -/

/-- The journal after the component of a layer and a name was made and kept. -/
def renewOne (sink : Sink) (journal : Journal) (layer : Layer) (name : Text) : Journal :=
  (journal.furnish layer name sink).keep (componentKey layer name)
    (journal.nextComponent layer name)

/-- The journal after the given components were made anew, one after the other. -/
def renewAll (sink : Sink) (journal : Journal) (components : List (Text × Component)) : Journal :=
  components.foldl (fun current entry => current.renewOne sink entry.2.layer entry.2.name) journal

theorem sinkOf_renewOne :
    (journal.renewOne sink layer name).sinkOf other otherName =
      if other = layer ∧ otherName = name then some sink else journal.sinkOf other otherName := by
  rw [renewOne, sinkOf_keep, sinkOf_furnish]

theorem kept_renewOne :
    (journal.renewOne sink layer name).kept other otherName =
      if other = layer ∧ otherName = name then some (journal.nextComponent layer name)
      else journal.kept other otherName := by
  rw [renewOne, kept_keep, kept_furnish]

theorem Keyed.renewOne {journal : Journal} (hKeyed : journal.Keyed) :
    (journal.renewOne sink layer name).Keyed := by
  intro entry hEntry
  rcases Value.mem_setEntry hEntry with hNew | hOld
  · rw [hNew]
    rfl
  · exact hKeyed entry hOld

theorem Keyed.of_kept {journal : Journal} (hKeyed : journal.Keyed) {layer : Layer} {name : Text}
    {component : Component} (hKept : journal.kept layer name = some component) :
    component.layer = layer ∧ component.name = name := by
  obtain ⟨front, behind, hSplit, _⟩ := List.lookup_eq_some_iff.mp hKept
  have hKey := hKeyed (componentKey layer name, component) (by simp [hSplit])
  obtain ⟨hLayer, hName⟩ := componentKey_inj.mp hKey
  exact ⟨hLayer.symm, hName.symm⟩

/-- A component of the layer and the name is in the list. -/
def Listed (components : List (Text × Component)) : Prop :=
  ∃ entry ∈ components, layer = entry.2.layer ∧ name = entry.2.name

theorem Keyed.listed_iff {journal : Journal} (hKeyed : journal.Keyed) :
    Listed layer name journal.components ↔ (journal.kept layer name).isSome := by
  rw [kept, List.lookup_isSome_iff]
  constructor
  · rintro ⟨entry, hEntry, rfl, rfl⟩
    exact ⟨entry, hEntry, beq_iff_eq.mpr (hKeyed entry hEntry).symm⟩
  · rintro ⟨entry, hEntry, hKey⟩
    have hSame := (beq_iff_eq.mp hKey).trans (hKeyed entry hEntry)
    exact ⟨entry, hEntry, componentKey_inj.mp hSame⟩

section

variable {journal : Journal} (components : List (Text × Component))

theorem Keyed.renewAll (hKeyed : journal.Keyed) : (journal.renewAll sink components).Keyed := by
  induction components generalizing journal with
  | nil => exact hKeyed
  | cons entry rest ih => exact ih (hKeyed.renewOne entry.2.layer entry.2.name sink)

theorem overrides_renewAll (journal : Journal) :
    (journal.renewAll sink components).level = journal.level ∧
      (journal.renewAll sink components).format = journal.format := by
  induction components generalizing journal with
  | nil => exact ⟨rfl, rfl⟩
  | cons entry rest ih => exact ih (journal.renewOne sink entry.2.layer entry.2.name)

variable (journal) {layer name components}

/-- What is not made anew keeps its sink and its component. -/
theorem renewAll_of_not_listed (hAbsent : ¬ Listed layer name components) :
    (journal.renewAll sink components).sinkOf layer name = journal.sinkOf layer name ∧
      (journal.renewAll sink components).kept layer name = journal.kept layer name := by
  induction components generalizing journal with
  | nil => exact ⟨rfl, rfl⟩
  | cons entry rest ih =>
      have hEntry : ¬ (layer = entry.2.layer ∧ name = entry.2.name) :=
        fun hSame => hAbsent ⟨entry, List.mem_cons_self, hSame⟩
      have hRest : ¬ Listed layer name rest := by
        rintro ⟨found, hFound, hSame⟩
        exact hAbsent ⟨found, List.mem_cons_of_mem _ hFound, hSame⟩
      obtain ⟨hSink, hKept⟩ := ih (journal.renewOne sink entry.2.layer entry.2.name) hRest
      rw [sinkOf_renewOne, if_neg hEntry] at hSink
      rw [kept_renewOne, if_neg hEntry] at hKept
      exact ⟨hSink, hKept⟩

/-- What is made anew has the new sink and a component that was not there before. -/
theorem renewAll_of_listed (hListed : Listed layer name components) :
    (journal.renewAll sink components).sinkOf layer name = some sink ∧
      ∃ component, (journal.renewAll sink components).kept layer name = some component ∧
        journal.nextSerial ≤ component.serial := by
  induction components generalizing journal with
  | nil =>
      obtain ⟨entry, hEntry, _⟩ := hListed
      cases hEntry
  | cons entry rest ih =>
      by_cases hRest : Listed layer name rest
      · obtain ⟨hSink, component, hKept, hSerial⟩ :=
          ih (journal.renewOne sink entry.2.layer entry.2.name) hRest
        exact ⟨hSink, component, hKept, Nat.le_of_succ_le hSerial⟩
      · -- It is the first of the list, and the others do not touch it.
        have hEntry : layer = entry.2.layer ∧ name = entry.2.name := by
          obtain ⟨found, hFound, hSame⟩ := hListed
          rcases List.mem_cons.mp hFound with rfl | hLater
          · exact hSame
          · exact absurd ⟨found, hLater, hSame⟩ hRest
        obtain ⟨hSink, hKept⟩ :=
          renewAll_of_not_listed sink (journal.renewOne sink entry.2.layer entry.2.name) hRest
        rw [sinkOf_renewOne, if_pos hEntry] at hSink
        rw [kept_renewOne, if_pos hEntry] at hKept
        exact ⟨hSink, _, hKept, Nat.le_refl _⟩

end

/-! ### Sound journals -/

/-- A journal as making and keeping components leaves it: every component is kept under its own key,
is known by a number that was given out, and has a sink; and every sink is one of a component and
has one writer. -/
structure Sound : Prop where
  keyed : journal.Keyed
  numbered : ∀ layer name component, journal.kept layer name = some component →
    component.serial < journal.nextSerial
  equipped : ∀ layer name component, journal.kept layer name = some component →
    ∃ sink, journal.sinkOf layer name = some sink
  single : ∀ layer name sink, journal.sinkOf layer name = some sink →
    ∃ format, sink.writers = [format]
  named : ∀ entry ∈ journal.sinks, ∃ layer name, entry.1 = sinkName layer name

theorem sound_empty : Journal.empty.Sound where
  keyed := fun _ hEntry => nomatch hEntry
  numbered := fun _ _ _ hKept => nomatch hKept
  equipped := fun _ _ _ hKept => nomatch hKept
  single := fun _ _ _ hSink => nomatch hSink
  named := fun _ hEntry => nomatch hEntry

section

variable {journal : Journal} (hSound : journal.Sound) {sink : Sink}
variable (hSingle : ∃ format, sink.writers = [format])

include hSound

theorem Sound.override (level : Option Severity) (format : Option Text) :
    { journal with level, format }.Sound where
  keyed := hSound.keyed
  numbered := hSound.numbered
  equipped := hSound.equipped
  single := hSound.single
  named := hSound.named

include hSingle

theorem Sound.furnish : (journal.furnish layer name sink).Sound where
  keyed := hSound.keyed
  numbered := fun _ _ _ hKept => Nat.lt_succ_of_lt (hSound.numbered _ _ _ hKept)
  equipped := by
    intro other otherName component hKept
    obtain ⟨old, hOld⟩ := hSound.equipped other otherName component hKept
    rw [sinkOf_furnish]
    split
    · exact ⟨sink, rfl⟩
    · exact ⟨old, hOld⟩
  single := by
    intro other otherName found hFound
    rw [sinkOf_furnish] at hFound
    split at hFound
    · cases hFound
      exact hSingle
    · exact hSound.single other otherName found hFound
  named := by
    intro entry hEntry
    rcases Value.mem_setEntry hEntry with hNew | hOld
    · exact ⟨layer, name, by rw [hNew]; rfl⟩
    · exact hSound.named entry hOld

theorem Sound.renewOne : (journal.renewOne sink layer name).Sound where
  keyed := hSound.keyed.renewOne layer name sink
  numbered := by
    intro other otherName component hKept
    rw [kept_renewOne] at hKept
    split at hKept
    · cases hKept
      exact Nat.lt_succ_self _
    · exact Nat.lt_succ_of_lt (hSound.numbered _ _ _ hKept)
  equipped := by
    intro other otherName component hKept
    rw [sinkOf_renewOne]
    rw [kept_renewOne] at hKept
    split
    · exact ⟨sink, rfl⟩
    · rename_i hOther
      rw [if_neg hOther] at hKept
      exact hSound.equipped other otherName component hKept
  single := (hSound.furnish layer name hSingle).single
  named := (hSound.furnish layer name hSingle).named

theorem Sound.renewAll (components : List (Text × Component)) :
    (journal.renewAll sink components).Sound := by
  induction components generalizing journal with
  | nil => exact hSound
  | cons entry rest ih => exact ih (hSound.renewOne entry.2.layer entry.2.name hSingle)

end

/-! ### Journals with one sink -/

/-- Just the given components were made and are kept, all with one sink, and nothing is asked for
later ones. -/
structure HoldsJust (sink : Sink) (components : List (Layer × Text)) (journal : Journal) :
    Prop where
  sound : journal.Sound
  level : journal.level = none
  format : journal.format = none
  kept : ∀ layer name, (journal.kept layer name).isSome ↔ (layer, name) ∈ components
  sinks : ∀ layer name,
    journal.sinkOf layer name = if (layer, name) ∈ components then some sink else none

theorem holdsJust_empty (sink : Sink) : HoldsJust sink [] Journal.empty where
  sound := sound_empty
  level := rfl
  format := rfl
  kept := fun _ _ => ⟨fun hKept => (nomatch hKept), fun hMember => (nomatch hMember)⟩
  sinks := fun _ _ => rfl

section

variable {sink : Sink} {components : List (Layer × Text)} {journal : Journal}
variable (hHolds : HoldsJust sink components journal)

include hHolds

theorem HoldsJust.of_mem_iff {others : List (Layer × Text)}
    (hSame : ∀ component, component ∈ others ↔ component ∈ components) :
    HoldsJust sink others journal where
  sound := hHolds.sound
  level := hHolds.level
  format := hHolds.format
  kept := fun layer name => by rw [hHolds.kept, hSame]
  sinks := fun layer name => by simp only [hHolds.sinks, hSame]

theorem HoldsJust.renewOne (hSingle : ∃ format, sink.writers = [format]) (layer : Layer)
    (name : Text) :
    HoldsJust sink ((layer, name) :: components) (journal.renewOne sink layer name) where
  sound := hHolds.sound.renewOne layer name hSingle
  level := hHolds.level
  format := hHolds.format
  kept := by
    intro other otherName
    rw [kept_renewOne, List.mem_cons, Prod.mk.injEq]
    split
    · rename_i hSame
      exact ⟨fun _ => .inl hSame, fun _ => rfl⟩
    · rename_i hOther
      rw [hHolds.kept, or_iff_right hOther]
  sinks := by
    intro other otherName
    simp only [sinkOf_renewOne, List.mem_cons, Prod.mk.injEq, hHolds.sinks]
    by_cases hSame : other = layer ∧ otherName = name
    · rw [if_pos hSame, if_pos (.inl hSame)]
    · simp only [if_neg hSame, or_iff_right hSame]

end

end Journal

end LogicSignature
