import LogicSignature.Proofs.LoggerNotes

/-
The loggers over whole runs.

A logger has one writer. Its level and the format of its writer are those of the last time that it
was made: as they were asked for, and where they were left open, as the settings showed them at that
moment. Loggers are made one by one, when they are first fetched, and all those that are kept
together when logging is configured; what logging was configured with last holds for the loggers
that are fetched later on.
-/

namespace LogicSignature.Session

open Journal (Severity Layer LineFormat Sink Component)
open Settings (Leaf)

/-! ### Calls -/

/-- A call that has to do with loggers, or with what they take their level and format from. -/
inductive LogCall where
  | other (call : Call)
  | component (layer : Layer) (name : Text)
  | newComponent (layer : Layer) (name : Text) (level : Option Severity) (format : Option Text)
  | configureLogging (level : Option Severity) (format : Option Text)

/-- The session after a call. -/
def LogCall.after (call : LogCall) (session : Session) : Session :=
  match call with
  | .other call => call.after session
  | .component layer name => (perform (Session.component layer name) session).2
  | .newComponent layer name level format =>
    (perform (Session.newComponent layer name level format) session).2
  | .configureLogging level format => (perform (Session.configureLogging level format) session).2

/-- The session after a run. Of the calls of the run, the latest stands first. -/
def afterCalls (first : Session) : List LogCall → Session
  | [] => first
  | latest :: earlier => latest.after (afterCalls first earlier)

/-! ### What a logger is made with -/

/-- The making of a logger: the level and the format asked for, and the session at that moment. -/
structure Making where
  level : Option Severity
  format : Option Text
  moment : Session

namespace Making

/-- The level of what is made: the one asked for, else the one that the settings show, else that of
a warning. -/
inductive AtLevel (making : Making) : Severity → Prop
  | asked {severity : Severity} : making.level = some severity → AtLevel making severity
  | configured {severity : Severity} : making.level = none →
      making.moment.shown .logLevel = .text severity.name → AtLevel making severity
  | unknown : making.level = none →
      (∀ severity : Severity, making.moment.shown .logLevel ≠ .text severity.name) →
      AtLevel making .warning

/-- The format asked for. An empty word counts as none if no level is asked for either. -/
def askedFormat (making : Making) : Option Text :=
  making.format.filter fun word => making.level.isSome || !word.isEmpty

/-- The format asked for, else the one that the settings show, is that of plain text. -/
def AsksForText (making : Making) : Prop :=
  (making.askedFormat.map Content.text).getD (making.moment.shown .logFormat) = .text "text"

/-- The sink of what is made: it has the level and a single writer. -/
structure Yields (making : Making) (sink : Sink) : Prop where
  level : making.AtLevel sink.level
  writer : ∃ format, sink.writers = [format] ∧ (format = .text ↔ making.AsksForText)

end Making

theorem ofName?_eq_some_iff (word : Text) (severity : Severity) :
    Severity.ofName? word = some severity ↔ word = severity.name := by
  constructor
  · intro hFound
    have hName : severity.name = word := by simpa using List.find?_some hFound
    exact hName.symm
  · rintro rfl
    cases severity <;> rfl

theorem ofWord_eq_text_iff (word : Text) : LineFormat.ofWord word = .text ↔ word = "text" := by
  unfold LineFormat.ofWord
  by_cases hWord : word = "text" <;> simp [hWord]

section

variable {session : Session} (hDeclared : session.settings.Declared)

include hDeclared

theorem atLevel_configured (format : Option Text) :
    (Making.mk none format session).AtLevel session.configuredLevel := by
  have hShown : ∀ content, session.shown .logLevel = content →
      session.settings.get session.environment .logLevel = .ok content := by
    rintro content rfl
    exact Settings.get_of_declared hDeclared _ _
  unfold configuredLevel
  split
  · rename_i word hWord
    rw [Settings.get_of_declared hDeclared] at hWord
    have hText : session.shown .logLevel = .text word := Except.ok.inj hWord
    cases hName : Severity.ofName? word with
    | some severity =>
        rw [(ofName?_eq_some_iff word severity).mp hName] at hText
        exact .configured rfl hText
    | none =>
        refine .unknown rfl fun severity hSeverity => ?_
        rw [hText] at hSeverity
        cases hSeverity
        rw [(ofName?_eq_some_iff _ severity).mpr rfl] at hName
        cases hName
  · rename_i hNoText
    exact .unknown rfl fun severity hSeverity => hNoText severity.name (hShown _ hSeverity)

theorem configuredFormat_spec {lineFormat : LineFormat}
    (hFormat : session.configuredFormat = .ok lineFormat) :
    lineFormat = .text ↔ session.shown .logFormat = .text "text" := by
  unfold configuredFormat at hFormat
  rw [Settings.get_of_declared hDeclared] at hFormat
  change _ ↔ Settings.shownContent _ _ _ = _
  revert hFormat
  generalize Settings.shownContent session.environment _ _ = content
  intro hFormat
  split at hFormat
  · rename_i word hWord
    cases hWord
    cases hFormat
    rw [ofWord_eq_text_iff]
    exact ⟨fun hSame => congrArg Content.text hSame, fun hSame => by cases hSame; rfl⟩
  · rename_i hNoText hContent
    cases hContent
    cases hFormat
    exact ⟨fun hSame => (by cases hSame), fun hSame => (hNoText "text" hSame).elim⟩
  · rename_i hFault
    cases hFault

end

theorem yields_of_sinkFor {session : Session} (hDeclared : session.settings.Declared)
    {level : Option Severity} {format : Option Text} {sink : Sink}
    (hSink : session.sinkFor level format = .ok sink) :
    (Making.mk level format session).Yields sink := by
  obtain ⟨lineFormat, hFormat, rfl⟩ := sinkFor_eq_ok hSink
  refine ⟨?_, lineFormat, rfl, ?_⟩
  · cases level with
    | some severity => exact .asked rfl
    | none => exact atLevel_configured hDeclared format
  · unfold Making.AsksForText Making.askedFormat
    unfold formatFor at hFormat
    cases format with
    | none => exact configuredFormat_spec hDeclared hFormat
    | some word =>
        simp only [Option.filter_some] at hFormat ⊢
        by_cases hLeft : (word.isEmpty && level.isNone) = true
        · have hNone : (level.isSome || !word.isEmpty) = false := by
            cases level <;> simp_all
          rw [if_pos hLeft] at hFormat
          rw [hNone]
          exact configuredFormat_spec hDeclared hFormat
        · have hSome : (level.isSome || !word.isEmpty) = true := by
            cases level <;> simp_all
          rw [if_neg hLeft] at hFormat
          cases hFormat
          rw [hSome, ofWord_eq_text_iff]
          exact ⟨fun hSame => congrArg Content.text hSame, fun hSame => by cases hSame; rfl⟩

/-! ### What happened in a run -/

/-- What logging was last configured with. -/
def overrides : List LogCall → Option Severity × Option Text
  | [] => (none, none)
  | .configureLogging level format :: _ => (level, format)
  | _ :: earlier => overrides earlier

section

variable (layer : Layer) (name : Text)

/-- The session in which a call fetches a component, if it does. -/
def LogCall.fetchOf (call : LogCall) (now : Session) : Option Session :=
  match call with
  | .component fetched called => if layer = fetched ∧ name = called then some now else none
  | .other .loadDefaultSettings =>
    if layer = .config ∧ name = "manager" then warningMoment now.defaultFiles now else none
  | _ => none

/-- Whether a component is kept after a run: from the start, or because it was fetched. -/
def cached (first : Session) : List LogCall → Bool
  | [] => startingComponents.contains (layer, name)
  | latest :: earlier =>
    cached first earlier || (latest.fetchOf layer name (afterCalls first earlier)).isSome

/-- The making of a component by a call, where it is known whether the component is kept and what
logging was last configured with. -/
def LogCall.makingOf (call : LogCall) (isKept : Bool)
    (override : Option Severity × Option Text) (now : Session) : Option Making :=
  match call with
  | .newComponent made called level format =>
    if layer = made ∧ name = called then some ⟨level, format, now⟩ else none
  | .configureLogging level format => if isKept then some ⟨level, format, now⟩ else none
  | call =>
    if isKept then none
    else (call.fetchOf layer name now).map fun moment => ⟨override.1, override.2, moment⟩

/-- The last making of a component in a run. Those of the start are made with its settings and
variables. -/
def lastMaking (first : Session) : List LogCall → Option Making
  | [] => if (layer, name) ∈ startingComponents then some ⟨none, none, first⟩ else none
  | latest :: earlier =>
    (latest.makingOf layer name (cached layer name first earlier) (overrides earlier)
      (afterCalls first earlier)).or (lastMaking first earlier)

end

/-- The journal of a session is what the run has made of it. -/
structure Tracks (first : Session) (calls : List LogCall) (now : Session) : Prop where
  declared : now.settings.Declared
  sound : now.journal.Sound
  level : now.journal.level = (overrides calls).1
  format : now.journal.format = (overrides calls).2
  kept : ∀ layer name, (now.journal.kept layer name).isSome = cached layer name first calls
  sinks : ∀ layer name,
    Option.Rel Making.Yields (lastMaking layer name first calls) (now.journal.sinkOf layer name)

/-! ### One call -/

theorem declared_after {session : Session} (hDeclared : session.settings.Declared) (call : Call) :
    (call.after session).settings.Declared := by
  cases hReset : call.isReset with
  | true =>
      cases call with
      | resetSettings => exact Settings.declared_initial
      | _ => cases hReset
  | false =>
      rw [settings_after hDeclared hReset]
      exact hDeclared.writeAll _

/-- Only the loading of default files has to do with the journal, for its warnings. -/
theorem journal_after {call : Call} (hCall : call ≠ .loadDefaultSettings) (session : Session) :
    (call.after session).journal = session.journal := by
  cases call with
  | store path content =>
      rw [Call.after, store, perform_bind, perform_get, proceed_ok]
      split
      · split <;> rfl
      · rfl
  | loadSettings path => exact journal_loadSettings path session
  | loadDefaultSettings => exact absurd rfl hCall
  | resetSettings => rfl
  | setVariable name value =>
      exact keeps_setVariable Session.journal (fun _ _ => rfl) name value session
  | writeFile path entry =>
      exact keeps_writeFile Session.journal (fun _ _ => rfl) path entry session
  | removeFile path => exact keeps_removeFile Session.journal (fun _ _ => rfl) path session
  | initTable path => exact (onlyNotes_initTable path session).journal
  | defaultTable => exact (onlyNotes_defaultTable session).journal
  | forgetTable => rfl
  | validate limits program arguments =>
      exact (onlyNotes_validate none limits program arguments session).journal

/-- Neither a making without keeping nor a configuration. -/
def LogCall.isPlain : LogCall → Bool
  | .newComponent _ _ _ _ => false
  | .configureLogging _ _ => false
  | _ => true

section

variable {first : Session} {earlier : List LogCall} {latest : LogCall} {after : Session}
variable (hTracks : Tracks first earlier (afterCalls first earlier))
variable (hPlain : latest.isPlain = true) (hDeclared : after.settings.Declared)

theorem overrides_of_plain (hPlain : latest.isPlain = true) (earlier : List LogCall) :
    overrides (latest :: earlier) = overrides earlier := by
  cases latest with
  | newComponent made called level format => cases hPlain
  | configureLogging level format => cases hPlain
  | component fetched called => rfl
  | other call => rfl

theorem makingOf_of_plain (hPlain : latest.isPlain = true) (layer : Layer) (name : Text)
    (isKept : Bool) (override : Option Severity × Option Text) (now : Session) :
    latest.makingOf layer name isKept override now =
      if isKept then none
      else (latest.fetchOf layer name now).map fun moment => ⟨override.1, override.2, moment⟩ := by
  cases latest with
  | newComponent made called level format => cases hPlain
  | configureLogging level format => cases hPlain
  | component fetched called => rfl
  | other call => rfl

include hTracks hPlain hDeclared

theorem tracks_of_same
    (hFetch : ∀ layer name, latest.fetchOf layer name (afterCalls first earlier) = none ∨
      cached layer name first earlier = true)
    (hJournal : after.journal = (afterCalls first earlier).journal) :
    Tracks first (latest :: earlier) after := by
  have hOverrides := overrides_of_plain hPlain earlier
  refine ⟨hDeclared, ?_, ?_, ?_, fun layer name => ?_, fun layer name => ?_⟩
  · rw [hJournal]
    exact hTracks.sound
  · rw [hJournal, hOverrides]
    exact hTracks.level
  · rw [hJournal, hOverrides]
    exact hTracks.format
  · rw [hJournal, hTracks.kept, cached]
    rcases hFetch layer name with hNone | hCached
    · rw [hNone, Option.isSome_none, Bool.or_false]
    · rw [hCached, Bool.true_or]
  · have hMaking : latest.makingOf layer name (cached layer name first earlier) (overrides earlier)
        (afterCalls first earlier) = none := by
      rw [makingOf_of_plain hPlain]
      rcases hFetch layer name with hNone | hCached
      · rw [hNone, Option.map_none, ite_self]
      · rw [if_pos hCached]
    rw [hJournal, lastMaking, hMaking, Option.none_or]
    exact hTracks.sinks layer name

theorem tracks_of_fetch {fetched : Layer} {called : Text} {moment : Session}
    (hFetch : ∀ layer name, latest.fetchOf layer name (afterCalls first earlier) =
      if layer = fetched ∧ name = called then some moment else none)
    (hMoment : moment.journal = (afterCalls first earlier).journal)
    (hSettings : moment.settings.Declared)
    (hJournal : after.journal = (perform (component fetched called) moment).2.journal) :
    Tracks first (latest :: earlier) after := by
  have hOverrides := overrides_of_plain hPlain earlier
  cases hKept : (afterCalls first earlier).journal.kept fetched called with
  | some found =>
      have hCached : cached fetched called first earlier = true := by
        rw [← hTracks.kept, hKept, Option.isSome_some]
      have hFound : moment.journal.kept fetched called = some found := by
        rw [hMoment, hKept]
      rw [perform_component_of_kept hFound] at hJournal
      refine tracks_of_same hTracks hPlain hDeclared (fun layer name => ?_) (hJournal.trans hMoment)
      by_cases hSame : layer = fetched ∧ name = called
      · exact .inr (hSame.1 ▸ hSame.2 ▸ hCached)
      · exact .inl (by rw [hFetch, if_neg hSame])
  | none =>
      have hCached : cached fetched called first earlier = false := by
        rw [← hTracks.kept, hKept, Option.isSome_none]
      have hNew : moment.journal.kept fetched called = none := by
        rw [hMoment, hKept]
      obtain ⟨sink, hSink⟩ :=
        exists_sinkFor_eq_ok hSettings moment.journal.level moment.journal.format
      rw [perform_component_of_new hNew hSink, hMoment] at hJournal
      have hYields := yields_of_sinkFor hSettings hSink
      rw [hMoment, hTracks.level, hTracks.format] at hYields
      refine ⟨hDeclared, ?_, ?_, ?_, fun layer name => ?_, fun layer name => ?_⟩
      · rw [hJournal]
        exact hTracks.sound.renewOne fetched called (single_of_sinkFor hSink)
      · rw [hJournal, hOverrides]
        exact hTracks.level
      · rw [hJournal, hOverrides]
        exact hTracks.format
      · rw [hJournal, Journal.kept_renewOne, cached, hFetch]
        by_cases hSame : layer = fetched ∧ name = called
        · rw [if_pos hSame, if_pos hSame, Option.isSome_some, Option.isSome_some, Bool.or_true]
        · rw [if_neg hSame, if_neg hSame, Option.isSome_none, Bool.or_false, hTracks.kept]
      · rw [hJournal, Journal.sinkOf_renewOne, lastMaking, makingOf_of_plain hPlain, hFetch]
        by_cases hSame : layer = fetched ∧ name = called
        · obtain ⟨rfl, rfl⟩ := hSame
          simp only [hCached, and_self, if_true, Bool.false_eq_true, if_false, Option.map_some,
            Option.some_or]
          exact .some hYields
        · rw [if_neg hSame, if_neg hSame, Option.map_none, ite_self, Option.none_or]
          exact hTracks.sinks layer name

end

section

variable {first : Session} {earlier : List LogCall}
variable (hTracks : Tracks first earlier (afterCalls first earlier))

include hTracks

theorem tracks_other (call : Call) :
    Tracks first (.other call :: earlier) (call.after (afterCalls first earlier)) := by
  have hDeclared := declared_after hTracks.declared call
  by_cases hCall : call = .loadDefaultSettings
  · subst hCall
    rw [Call.after, perform_loadDefaultSettings] at hDeclared ⊢
    cases hMoment : warningMoment (afterCalls first earlier).defaultFiles
        (afterCalls first earlier) with
    | none =>
        refine tracks_of_same hTracks rfl hDeclared (fun layer name => .inl ?_)
          (loadDefaultFiles_of_no_warning hMoment).1
        rw [LogCall.fetchOf, hMoment, ite_self]
    | some moment =>
        obtain ⟨hSame, _, hStays, _⟩ := loadDefaultFiles_of_warning hMoment
        refine tracks_of_fetch hTracks rfl hDeclared (fun layer name => ?_) hSame
          (hStays hTracks.declared) (journal_loadDefaultFiles_of_warning hTracks.declared hMoment)
        rw [LogCall.fetchOf, hMoment]
  · refine tracks_of_same hTracks rfl hDeclared (fun layer name => .inl ?_)
      (journal_after hCall (afterCalls first earlier))
    unfold LogCall.fetchOf
    cases call with
    | loadDefaultSettings => exact absurd rfl hCall
    | _ => rfl

theorem tracks_component (fetched : Layer) (called : Text) :
    Tracks first (.component fetched called :: earlier)
      (perform (component fetched called) (afterCalls first earlier)).2 := by
  have hSettings : (perform (component fetched called) (afterCalls first earlier)).2.settings =
      (afterCalls first earlier).settings :=
    (onlyLogs_component fetched called).keeps (fun _ => rfl) _
  refine tracks_of_fetch hTracks rfl ?_ (fun layer name => rfl) rfl hTracks.declared rfl
  rw [hSettings]
  exact hTracks.declared

theorem tracks_newComponent (made : Layer) (called : Text) (level : Option Severity)
    (format : Option Text) :
    Tracks first (.newComponent made called level format :: earlier)
      (perform (newComponent made called level format) (afterCalls first earlier)).2 := by
  obtain ⟨sink, hSink⟩ := exists_sinkFor_eq_ok hTracks.declared level format
  rw [perform_newComponent made called hSink]
  refine ⟨hTracks.declared, hTracks.sound.furnish made called (single_of_sinkFor hSink),
    hTracks.level, hTracks.format, fun layer name => ?_, fun layer name => ?_⟩
  · simp only [Journal.kept_furnish, cached, LogCall.fetchOf, Option.isSome_none, Bool.or_false]
    exact hTracks.kept layer name
  · simp only [Journal.sinkOf_furnish, lastMaking, LogCall.makingOf]
    by_cases hSame : layer = made ∧ name = called
    · rw [if_pos hSame, if_pos hSame, Option.some_or]
      exact .some (yields_of_sinkFor hTracks.declared hSink)
    · rw [if_neg hSame, if_neg hSame, Option.none_or]
      exact hTracks.sinks layer name

theorem tracks_configureLogging (level : Option Severity) (format : Option Text) :
    Tracks first (.configureLogging level format :: earlier)
      (perform (configureLogging level format) (afterCalls first earlier)).2 := by
  obtain ⟨sink, hSink⟩ := exists_sinkFor_eq_ok hTracks.declared level format
  have hSound := hTracks.sound.override level format
  have hOverrides := Journal.overrides_renewAll sink (afterCalls first earlier).journal.components
    ((afterCalls first earlier).override level format).journal
  have hListed := hTracks.sound.keyed.listed_iff
  rw [perform_configureLogging hTracks.sound.keyed hSink]
  refine ⟨hTracks.declared, hSound.renewAll (single_of_sinkFor hSink) _, hOverrides.1, hOverrides.2,
    fun layer name => ?_, fun layer name => ?_⟩
  · have hCached : cached layer name first (.configureLogging level format :: earlier) =
        cached layer name first earlier := Bool.or_false _
    rw [hCached, ← hTracks.kept]
    cases hKept : ((afterCalls first earlier).journal.kept layer name).isSome with
    | true =>
        obtain ⟨_, component, hNew, _⟩ := Journal.renewAll_of_listed sink
          ((afterCalls first earlier).override level format).journal
          ((hListed layer name).mpr hKept)
        rw [hNew, Option.isSome_some]
    | false =>
        have hUnlisted := mt (hListed layer name).mp (by simp [hKept])
        rw [(Journal.renewAll_of_not_listed sink _ hUnlisted).2]
        exact hKept
  · rw [lastMaking, LogCall.makingOf, ← hTracks.kept]
    cases hKept : ((afterCalls first earlier).journal.kept layer name).isSome with
    | true =>
        rw [(Journal.renewAll_of_listed sink _ ((hListed layer name).mpr hKept)).1]
        exact .some (yields_of_sinkFor hTracks.declared hSink)
    | false =>
        have hUnlisted := mt (hListed layer name).mp (by simp [hKept])
        rw [(Journal.renewAll_of_not_listed sink _ hUnlisted).1]
        exact hTracks.sinks layer name

end

/-! ### Whole runs -/

section

variable (storage : Storage) (homeText : Text) (environment : Settings.Environment) (clock : Clock)

theorem tracks_start :
    Tracks (start storage homeText environment clock) []
      (start storage homeText environment clock) := by
  obtain ⟨sink, hSink, -, hHolds⟩ := exists_starting_sink storage homeText environment clock
  refine ⟨Settings.declared_initial, hHolds.sound, hHolds.level, hHolds.format,
    fun layer name => ?_, fun layer name => ?_⟩
  · rw [cached, Bool.eq_iff_iff, List.contains_iff_mem]
    exact hHolds.kept layer name
  · rw [hHolds.sinks, lastMaking]
    split
    · exact .some (yields_of_sinkFor Settings.declared_initial hSink)
    · exact .none

theorem tracks_afterCalls (calls : List LogCall) :
    Tracks (start storage homeText environment clock) calls
      (afterCalls (start storage homeText environment clock) calls) := by
  induction calls with
  | nil => exact tracks_start storage homeText environment clock
  | cons latest earlier ih =>
      cases latest with
      | other call => exact tracks_other ih call
      | component layer name => exact tracks_component ih layer name
      | newComponent layer name level format => exact tracks_newComponent ih layer name level format
      | configureLogging level format => exact tracks_configureLogging ih level format

end

/-- What is kept stays the same component in every call that is no configuration. -/
theorem kept_after {first : Session} {earlier : List LogCall}
    (hTracks : Tracks first earlier (afterCalls first earlier)) {latest : LogCall}
    (hLatest : ∀ level format, latest ≠ .configureLogging level format) {layer : Layer}
    {name : Text} {found : Component}
    (hKept : (afterCalls first earlier).journal.kept layer name = some found) :
    (afterCalls first (latest :: earlier)).journal.kept layer name = some found := by
  have hFetched : ∀ fetched called (moment : Session),
      moment.journal = (afterCalls first earlier).journal →
      moment.settings.Declared →
      (perform (component fetched called) moment).2.journal.kept layer name = some found := by
    intro fetched called moment hMoment hSettings
    rw [← hMoment] at hKept
    cases hFound : moment.journal.kept fetched called with
    | some other =>
        rw [perform_component_of_kept hFound]
        exact hKept
    | none =>
        obtain ⟨sink, hSink⟩ :=
          exists_sinkFor_eq_ok hSettings moment.journal.level moment.journal.format
        have hOther : ¬ (layer = fetched ∧ name = called) := by
          rintro ⟨rfl, rfl⟩
          rw [hFound] at hKept
          cases hKept
        rw [perform_component_of_new hFound hSink, Journal.kept_renewOne, if_neg hOther]
        exact hKept
  cases latest with
  | component fetched called => exact hFetched fetched called _ rfl hTracks.declared
  | newComponent made called level format =>
      obtain ⟨sink, hSink⟩ := exists_sinkFor_eq_ok hTracks.declared level format
      rw [afterCalls, LogCall.after, perform_newComponent made called hSink]
      exact hKept
  | configureLogging level format => exact absurd rfl (hLatest level format)
  | other call =>
      rw [afterCalls, LogCall.after]
      by_cases hCall : call = .loadDefaultSettings
      · subst hCall
        rw [Call.after, perform_loadDefaultSettings]
        cases hMoment : warningMoment (afterCalls first earlier).defaultFiles
            (afterCalls first earlier) with
        | none =>
            rw [(loadDefaultFiles_of_no_warning hMoment).1]
            exact hKept
        | some moment =>
            obtain ⟨hSame, _, hStays, _⟩ := loadDefaultFiles_of_warning hMoment
            rw [journal_loadDefaultFiles_of_warning hTracks.declared hMoment]
            exact hFetched .config "manager" moment hSame (hStays hTracks.declared)
      · rw [journal_after hCall]
        exact hKept

/-- What the loggers of a session obey after a run. -/
structure LoggerLaws (first : Session) (calls : List LogCall) : Prop where
  /-- A logger that was ever made has the sink of its last making, and there are no others. -/
  lastMade : ∀ layer name,
    Option.Rel Making.Yields (lastMaking layer name first calls)
      ((afterCalls first calls).journal.sinkOf layer name)
  /-- A configuration succeeds, and makes all that is kept anew with its level and its format. -/
  configured : ∀ level format,
    (perform (configureLogging level format) (afterCalls first calls)).1 = .ok () ∧
      ∀ layer name found, (afterCalls first calls).journal.kept layer name = some found →
        ∃ sink other,
          (afterCalls first (.configureLogging level format :: calls)).journal.sinkOf layer name =
              some sink ∧
            Making.Yields ⟨level, format, afterCalls first calls⟩ sink ∧
            (afterCalls first (.configureLogging level format :: calls)).journal.kept layer name =
              some other ∧ other ≠ found
  /-- What is fetched for the first time has what logging was last configured with. -/
  fetched : ∀ layer name, (afterCalls first calls).journal.kept layer name = none →
    ∃ sink, (afterCalls first (.component layer name :: calls)).journal.sinkOf layer name =
        some sink ∧
      Making.Yields ⟨(overrides calls).1, (overrides calls).2, afterCalls first calls⟩ sink
  /-- A component that is fetched is the same until logging is configured. -/
  same : ∀ layer name, ∃ found : Component, found.layer = layer ∧ found.name = name ∧
    (perform (component layer name) (afterCalls first calls)).1 = .ok found ∧
      ∀ later : List LogCall,
        (∀ call ∈ later, ∀ level format, call ≠ .configureLogging level format) →
        perform (component layer name)
            (afterCalls first (later ++ .component layer name :: calls)) =
          (.ok found, afterCalls first (later ++ .component layer name :: calls))

/-- Over every run, a logger has one writer and the level and format of its last making; a
configuration is the making of all that is kept; its level and format hold for what is fetched later
for the first time; and what is fetched stays the same until the next configuration. -/
theorem loggers_over_runs (storage : Storage) (homeText : Text)
    (environment : Settings.Environment) (clock : Clock) (calls : List LogCall) :
    LoggerLaws (start storage homeText environment clock) calls := by
  have hTracks := tracks_afterCalls storage homeText environment clock
  generalize start storage homeText environment clock = first at hTracks ⊢
  have hNow := hTracks calls
  refine ⟨hNow.sinks, fun level format => ?_, fun layer name hNew => ?_, fun layer name => ?_⟩
  · obtain ⟨sink, hSink⟩ := exists_sinkFor_eq_ok hNow.declared level format
    have hConfigured := perform_configureLogging hNow.sound.keyed hSink
    refine ⟨congrArg Prod.fst hConfigured, fun layer name found hKept => ?_⟩
    have hListed : Journal.Listed layer name (afterCalls first calls).journal.components :=
      (hNow.sound.keyed.listed_iff layer name).mpr (Option.isSome_of_eq_some hKept)
    obtain ⟨hRenewed, other, hOther, hSerial⟩ := Journal.renewAll_of_listed sink
      ((afterCalls first calls).override level format).journal hListed
    rw [afterCalls, LogCall.after, hConfigured]
    refine ⟨sink, other, hRenewed, yields_of_sinkFor hNow.declared hSink, hOther, fun hSame => ?_⟩
    -- Serial numbers are given out once.
    have hOld := hNow.sound.numbered layer name found hKept
    rw [← hSame] at hOld
    exact Nat.not_lt.mpr hSerial hOld
  · obtain ⟨sink, hSink⟩ := exists_sinkFor_eq_ok hNow.declared
      (afterCalls first calls).journal.level (afterCalls first calls).journal.format
    have hYields := yields_of_sinkFor hNow.declared hSink
    rw [hNow.level, hNow.format] at hYields
    refine ⟨sink, ?_, hYields⟩
    rw [afterCalls, LogCall.after, perform_component_of_new hNew hSink, Journal.sinkOf_renewOne,
      if_pos ⟨rfl, rfl⟩]
  · obtain ⟨found, after, hFound⟩ := exists_component_eq_ok hNow.declared layer name
    have hFetched : (afterCalls first (.component layer name :: calls)).journal.kept layer name =
        some found := by
      rw [afterCalls, LogCall.after, hFound]
      exact kept_component hFound
    have hOwn := (hTracks (.component layer name :: calls)).sound.keyed.of_kept hFetched
    refine ⟨found, hOwn.1, hOwn.2, congrArg Prod.fst hFound, fun later hLater => ?_⟩
    apply perform_component_of_kept
    induction later with
    | nil => exact hFetched
    | cons latest rest ih =>
        obtain ⟨hLatest, hRest⟩ := List.forall_mem_cons.mp hLater
        exact kept_after (hTracks _) hLatest (ih hRest)

end LogicSignature.Session
