import LogicSignature.Proofs.LoggerRegistry
import LogicSignature.Proofs.SettingsHistory

/-
Setting up loggers in a session.

A component that is made gets a sink from the level and the format asked for, and where they are
left open, from the settings at that moment. That is all that happens to the journal: notes are
written with it and leave it alone, and the loading of default files makes one component at most,
for its warnings.
-/

namespace LogicSignature.Session

open Journal (Severity Layer LineFormat Sink Component Note)
open Settings (Leaf)

/-! ### The sink of a new component -/

section

variable {session : Session} {level : Option Severity} {format : Option Text} {sink : Sink}

theorem sinkFor_eq_ok (hSink : session.sinkFor level format = .ok sink) :
    ∃ lineFormat, session.formatFor level format = .ok lineFormat ∧
      sink = ⟨level.getD session.configuredLevel, [lineFormat]⟩ := by
  unfold sinkFor at hSink
  cases hFormat : session.formatFor level format with
  | error fault =>
      rw [hFormat] at hSink
      cases hSink
  | ok lineFormat =>
      rw [hFormat] at hSink
      cases hSink
      exact ⟨lineFormat, rfl, rfl⟩

theorem single_of_sinkFor (hSink : session.sinkFor level format = .ok sink) :
    ∃ lineFormat, sink.writers = [lineFormat] := by
  obtain ⟨lineFormat, _, rfl⟩ := sinkFor_eq_ok hSink
  exact ⟨lineFormat, rfl⟩

/-! ### Making, fetching and rebuilding -/

variable (layer : Layer) (name : Text)

theorem perform_newComponent (hSink : session.sinkFor level format = .ok sink) :
    perform (newComponent layer name level format) session =
      (.ok (session.journal.nextComponent layer name),
        { session with journal := session.journal.furnish layer name sink }) := by
  simp only [newComponent, perform_bind, perform_ask, hSink, proceed_ok, perform_get,
    Journal.construct_eq, perform_set, perform_pure]

theorem perform_newComponent_of_fault {fault : Fault}
    (hFault : session.sinkFor level format = .error fault) :
    perform (newComponent layer name level format) session = (.error fault, session) := by
  simp only [newComponent, perform_bind, perform_ask, hFault, proceed_error]

variable {layer name}

theorem perform_component_of_kept {found : Component}
    (hKept : session.journal.kept layer name = some found) :
    perform (component layer name) session = (.ok found, session) := by
  rw [Journal.kept] at hKept
  rw [component, perform_bind, perform_get, proceed_ok, hKept]
  rfl

theorem perform_component_of_new (hNew : session.journal.kept layer name = none)
    (hSink : session.sinkFor session.journal.level session.journal.format = .ok sink) :
    perform (component layer name) session =
      (.ok (session.journal.nextComponent layer name),
        { session with journal := session.journal.renewOne sink layer name }) := by
  rw [Journal.kept] at hNew
  rw [component, perform_bind, perform_get, proceed_ok, hNew]
  simp only [perform_bind, perform_newComponent layer name hSink, proceed_ok, perform_change,
    perform_pure]
  rfl

theorem perform_component_of_fault {fault : Fault} (hNew : session.journal.kept layer name = none)
    (hFault : session.sinkFor session.journal.level session.journal.format = .error fault) :
    perform (component layer name) session = (.error fault, session) := by
  rw [Journal.kept] at hNew
  rw [component, perform_bind, perform_get, proceed_ok, hNew]
  simp only [perform_bind, perform_newComponent_of_fault layer name hFault, proceed_error]

theorem perform_rebuild {components : List (Text × Component)}
    (hKeyed : ∀ entry ∈ components,
      entry.1 = Journal.componentKey entry.2.layer entry.2.name)
    (hSink : session.sinkFor level format = .ok sink) :
    perform (rebuild level format components) session =
      (.ok (), { session with journal := session.journal.renewAll sink components }) := by
  induction components generalizing session with
  | nil => rfl
  | cons entry rest ih =>
      obtain ⟨key, old⟩ := entry
      obtain ⟨hKey, hRest⟩ := List.forall_mem_cons.mp hKeyed
      simp only [rebuild, perform_bind, perform_newComponent old.layer old.name hSink, proceed_ok,
        perform_change]
      rw [show key = Journal.componentKey old.layer old.name from hKey]
      -- The sink depends on the settings only, so it is the same for the rest.
      exact ih hRest hSink

theorem perform_rebuild_of_fault {fault : Fault}
    (hFault : session.sinkFor level format = .error fault)
    (components : List (Text × Component)) :
    (perform (rebuild level format components) session).2 = session := by
  cases components with
  | nil => rfl
  | cons entry rest =>
      simp only [rebuild, perform_bind,
        perform_newComponent_of_fault entry.2.layer entry.2.name hFault, proceed_error]

/-- The session with a level and a format that hold for later components. -/
def override (session : Session) (level : Option Severity) (format : Option Text) : Session :=
  { session with journal := { session.journal with level, format } }

theorem configureLogging_eq_rebuild :
    perform (configureLogging level format) session =
      perform (rebuild level format session.journal.components)
        (session.override level format) := by
  rw [configureLogging, perform_bind, perform_change, proceed_ok, perform_bind, perform_get,
    proceed_ok]
  rfl

theorem perform_configureLogging (hKeyed : session.journal.Keyed)
    (hSink : session.sinkFor level format = .ok sink) :
    perform (configureLogging level format) session =
      (.ok (), { session with
        journal := (session.override level format).journal.renewAll sink
          session.journal.components }) := by
  have hSame : (session.override level format).sinkFor level format = .ok sink := hSink
  rw [configureLogging_eq_rebuild, perform_rebuild hKeyed hSame]
  rfl

theorem perform_configureLogging_of_fault {fault : Fault}
    (hFault : session.sinkFor level format = .error fault) :
    (perform (configureLogging level format) session).2 = session.override level format := by
  have hSame : (session.override level format).sinkFor level format = .error fault := hFault
  rw [configureLogging_eq_rebuild, perform_rebuild_of_fault hSame]

end

/-! ### The components of the start -/

/-- Fetching components makes those that are not there, all with the sink that the settings ask
for. -/
theorem perform_fetchAll {session : Session} {sink : Sink} {made : List (Layer × Text)}
    (hSink : session.sinkFor none none = .ok sink)
    (hMade : Journal.HoldsJust sink made session.journal) (components : List (Layer × Text)) :
    ∃ journal, perform (fetchAll components) session = (.ok (), { session with journal }) ∧
      Journal.HoldsJust sink (components ++ made) journal := by
  induction components generalizing session made with
  | nil => exact ⟨session.journal, rfl, hMade⟩
  | cons component rest ih =>
      obtain ⟨layer, name⟩ := component
      rw [fetchAll, perform_bind]
      cases hKept : session.journal.kept layer name with
      | some found =>
          have hThere : (layer, name) ∈ made :=
            (hMade.kept layer name).mp (Option.isSome_of_eq_some hKept)
          obtain ⟨journal, hRest, hHolds⟩ := ih hSink hMade
          refine ⟨journal, ?_, hHolds.of_mem_iff fun other => ?_⟩
          · rw [perform_component_of_kept hKept, proceed_ok, hRest]
          · rw [List.cons_append, List.mem_cons, or_iff_right_of_imp]
            rintro rfl
            exact List.mem_append_right _ hThere
      | none =>
          have hOpen : session.sinkFor session.journal.level session.journal.format = .ok sink := by
            rw [hMade.level, hMade.format, hSink]
          -- The sink depends on the settings only, so it is the same for the rest.
          have hLater : { session with
              journal := session.journal.renewOne sink layer name }.sinkFor none none = .ok sink :=
            hSink
          obtain ⟨journal, hRest, hHolds⟩ :=
            ih hLater (hMade.renewOne (single_of_sinkFor hSink) layer name)
          refine ⟨journal, ?_, hHolds.of_mem_iff fun other => ?_⟩
          · rw [perform_component_of_new hKept hOpen, proceed_ok, hRest]
          · simp only [List.cons_append, List.mem_cons, List.mem_append]
            exact or_left_comm

/-- A session starts with its first components, which have the sink that the settings and variables
of the start ask for. -/
theorem exists_starting_sink (storage : Storage) (homeText : Text)
    (environment : Settings.Environment) (clock : Clock) :
    ∃ sink, (start storage homeText environment clock).sinkFor none none = .ok sink ∧
      perform (fetchAll startingComponents) (blank storage homeText environment clock) =
        (.ok (), start storage homeText environment clock) ∧
      Journal.HoldsJust sink startingComponents
        (start storage homeText environment clock).journal := by
  have hDeclared : (blank storage homeText environment clock).settings.Declared :=
    Settings.declared_initial
  obtain ⟨sink, hSink⟩ := exists_sinkFor_eq_ok hDeclared none none
  obtain ⟨journal, hFetch, hHolds⟩ :=
    perform_fetchAll hSink (Journal.holdsJust_empty sink) startingComponents
  have hJournal : (start storage homeText environment clock).journal = journal :=
    congrArg (fun outcome => outcome.2.journal) hFetch
  refine ⟨sink, hSink, ?_, ?_⟩
  · rw [hFetch, ← hJournal]
    rfl
  · rwa [hJournal, ← List.append_nil startingComponents]

example (storage : Storage) (homeText : Text) (clock : Clock) :
    (start storage homeText [("LSIG_LOG_LEVEL", "debug"), ("LSIG_LOG_FORMAT", "text")]
      clock).journal.sinkOf .langSpec "loader" = some ⟨.debug, [.text]⟩ := rfl

/-! ### What is done to the journal -/

/-- A journal that was sound stays so, and what is kept in it stays kept, if only as a component
made anew. -/
structure Advances (before after : Session) : Prop where
  sound : before.journal.Sound → after.journal.Sound
  kept : before.journal.Sound → ∀ layer name, (before.journal.kept layer name).isSome →
    (after.journal.kept layer name).isSome

theorem Advances.of_journal_eq {before after : Session} (hSame : after.journal = before.journal) :
    Advances before after := by
  refine ⟨fun hSound => ?_, fun _ layer name hKept => ?_⟩
  · rwa [hSame]
  · rwa [hSame]

theorem carries_advances : Carries Advances where
  refl := fun _ => .of_journal_eq rfl
  trans := fun hFirst hSecond =>
    { sound := fun hSound => hSecond.sound (hFirst.sound hSound)
      kept := fun hSound layer name hKept =>
        hSecond.kept (hFirst.sound hSound) layer name (hFirst.kept hSound layer name hKept) }

theorem Keeps.advances {Result : Type} {action : Action Result}
    (hKeeps : Keeps Session.journal action) : Leads Advances action :=
  fun session => .of_journal_eq (hKeeps session)

theorem advances_newComponent (layer : Layer) (name : Text) (level : Option Severity)
    (format : Option Text) : Leads Advances (newComponent layer name level format) := by
  intro session
  cases hSink : session.sinkFor level format with
  | error fault =>
      rw [perform_newComponent_of_fault layer name hSink]
      exact carries_advances.refl session
  | ok sink =>
      rw [perform_newComponent layer name hSink]
      exact ⟨fun hSound => hSound.furnish layer name (single_of_sinkFor hSink),
        fun _ _ _ hKept => hKept⟩

theorem advances_component (layer : Layer) (name : Text) :
    Leads Advances (component layer name) := by
  intro session
  cases hKept : session.journal.kept layer name with
  | some found =>
      rw [perform_component_of_kept hKept]
      exact carries_advances.refl session
  | none =>
      cases hSink : session.sinkFor session.journal.level session.journal.format with
      | error fault =>
          rw [perform_component_of_fault hKept hSink]
          exact carries_advances.refl session
      | ok sink =>
          rw [perform_component_of_new hKept hSink]
          refine ⟨fun hSound => hSound.renewOne layer name (single_of_sinkFor hSink), ?_⟩
          intro _ other otherName hOther
          simp only [Journal.kept_renewOne]
          split
          · rfl
          · exact hOther

theorem advances_configureLogging (level : Option Severity) (format : Option Text) :
    Leads Advances (configureLogging level format) := by
  intro session
  cases hSink : session.sinkFor level format with
  | error fault =>
      rw [perform_configureLogging_of_fault hSink]
      exact ⟨fun hSound => hSound.override level format, fun _ _ _ hKept => hKept⟩
  | ok sink =>
      refine ⟨fun hSound => ?_, fun hSound layer name hKept => ?_⟩
      · rw [perform_configureLogging hSound.keyed hSink]
        exact (hSound.override level format).renewAll (single_of_sinkFor hSink) _
      · rw [perform_configureLogging hSound.keyed hSink]
        have hListed := (hSound.keyed.listed_iff layer name).mpr hKept
        obtain ⟨_, component, hNew, _⟩ :=
          Journal.renewAll_of_listed sink (session.override level format).journal hListed
        simp only [hNew, Option.isSome_some]

end LogicSignature.Session
