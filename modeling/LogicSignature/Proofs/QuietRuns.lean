import LogicSignature.Proofs.CommandRuns

/-
Quiet runs.

When a command line asks for quiet, logging is configured so that only errors are written, and a
fault is not reported. But settings are loaded first. If they come from the default files, the
warning about a file that is passed over is written at the level of the session, and this is all
that can be written.
-/

namespace LogicSignature

namespace Session

open Journal (Severity Layer Sink Component Note)

/-! ### What has been said -/

/-- What has been said stays said. -/
def Grows (before after : Session) : Prop := before.diagnostics <+: after.diagnostics

theorem carries_grows : Carries Grows where
  refl := fun _ => List.prefix_refl _
  trans := List.IsPrefix.trans

theorem Keeps.grows {Result : Type} {action : Action Result}
    (hKeeps : Keeps Session.diagnostics action) : Leads Grows action := by
  intro session
  refine ⟨[], ?_⟩
  rw [hKeeps session, List.append_nil]

theorem diagnostics_newComponent (layer : Layer) (name : Text) (level : Option Severity)
    (format : Option Text) : Keeps Session.diagnostics (newComponent layer name level format) := by
  intro session
  cases hSink : session.sinkFor level format with
  | error fault => rw [perform_newComponent_of_fault layer name hSink]
  | ok sink => rw [perform_newComponent layer name hSink]

theorem diagnostics_component (layer : Layer) (name : Text) :
    Keeps Session.diagnostics (component layer name) := by
  intro session
  cases hKept : session.journal.kept layer name with
  | some found => rw [perform_component_of_kept hKept]
  | none =>
      cases hSink : session.sinkFor session.journal.level session.journal.format with
      | error fault => rw [perform_component_of_fault hKept hSink]
      | ok sink => rw [perform_component_of_new hKept hSink]

theorem diagnostics_rebuild (level : Option Severity) (format : Option Text)
    (components : List (Text × Component)) :
    Keeps Session.diagnostics (rebuild level format components) := by
  induction components with
  | nil => exact .pure ()
  | cons entry rest ih =>
      exact .bind (diagnostics_newComponent _ _ _ _) fun _ =>
        .bind (.change fun _ => rfl) fun _ => ih

theorem diagnostics_configureLogging (level : Option Severity) (format : Option Text) :
    Keeps Session.diagnostics (configureLogging level format) := by
  intro session
  rw [configureLogging_eq_rebuild]
  exact diagnostics_rebuild level format session.journal.components (session.override level format)

theorem grows_warn (written : Note) : Leads Grows (warn written) :=
  .bind carries_grows (diagnostics_component .config "manager").grows fun _ _ =>
    List.prefix_append _ _

theorem grows_loadDefaultFiles (paths : List Storage.Path) :
    Leads Grows (loadDefaultFiles paths) :=
  .loadDefaultFiles carries_grows (fun path => (diagnostics_loadSettings path).grows) grows_warn
    paths

/-! ### Warnings about default files -/

/-- The level of the component for the warnings about default files: of its sink if it is kept, else
of the sink that it gets now. -/
inductive WarnsAt (moment : Session) : Severity → Prop
  | kept {manager : Component} {sink : Sink} :
      moment.journal.kept .config "manager" = some manager →
      moment.journal.sinkOf .config "manager" = some sink → WarnsAt moment sink.level
  | made {sink : Sink} :
      moment.journal.kept .config "manager" = none →
      moment.sinkFor moment.journal.level moment.journal.format = .ok sink →
      WarnsAt moment sink.level

/-- No default file is warned about at a level that is written. -/
def LoadsQuietly (session : Session) (paths : List Storage.Path) : Prop :=
  ∀ moment level, warningMoment paths session = some moment → WarnsAt moment level →
    Severity.warning.rank < level.rank

/-- The component for the warnings is kept and writes none. -/
structure Muted (journal : Journal) : Prop where
  sound : journal.Sound
  silent : ∃ manager sink, journal.kept .config "manager" = some manager ∧
    journal.sinkOf .config "manager" = some sink ∧ Severity.warning.rank < sink.level.rank

/-- Nothing happened to the logs if the component for the warnings is muted. -/
def Unwarned (before after : Session) : Prop :=
  Muted before.journal → after.journal = before.journal ∧ after.diagnostics = before.diagnostics

theorem carries_unwarned : Carries Unwarned where
  refl := fun _ _ => ⟨rfl, rfl⟩
  trans := by
    intro before between after hFirst hSecond hMuted
    obtain ⟨hJournal, hSaid⟩ := hFirst hMuted
    obtain ⟨hLast, hRest⟩ := hSecond (hJournal ▸ hMuted)
    exact ⟨hLast.trans hJournal, hRest.trans hSaid⟩

theorem unwarned_warn (written : Note) : Leads Unwarned (warn written) := by
  intro session hMuted
  obtain ⟨manager, sink, hKept, hSink, hLevel⟩ := hMuted.silent
  obtain ⟨hLayer, hName⟩ := hMuted.sound.keyed.of_kept hKept
  have hNothing : session.journal.lines (session.record .config "manager" .warning written) = [] :=
    Journal.lines_eq_nil rfl hSink hLevel
  rw [warn, perform_bind, perform_component_of_kept hKept, proceed_ok, hLayer, hName]
  refine ⟨rfl, ?_⟩
  change session.diagnostics ++ _ = _
  rw [hNothing, List.append_nil]

theorem unwarned_loadDefaultFiles (paths : List Storage.Path) :
    Leads Unwarned (loadDefaultFiles paths) :=
  .loadDefaultFiles carries_unwarned
    (fun path session _ =>
      ⟨journal_loadSettings path session, diagnostics_loadSettings path session⟩)
    unwarned_warn paths

/-- The component for the warnings cannot be had, or it has the level that the warnings are written
at. -/
theorem manager_spec {moment : Session} (hSound : moment.journal.Sound) :
    (∃ fault, perform (component .config "manager") moment = (.error fault, moment) ∧
        ∀ level, ¬ WarnsAt moment level) ∨
      ∃ manager after sink,
        perform (component .config "manager") moment = (.ok manager, after) ∧
          after.journal.Sound ∧
          after.journal.kept .config "manager" = some manager ∧
          after.journal.sinkOf .config "manager" = some sink ∧
          after.diagnostics = moment.diagnostics ∧
          ∀ level, WarnsAt moment level ↔ level = sink.level := by
  cases hKept : moment.journal.kept .config "manager" with
  | some manager =>
      obtain ⟨sink, hSink⟩ := hSound.equipped _ _ _ hKept
      refine .inr ⟨manager, moment, sink, perform_component_of_kept hKept, hSound, hKept, hSink,
        rfl, fun level => ⟨fun hWarns => ?_, fun hLevel => hLevel ▸ .kept hKept hSink⟩⟩
      cases hWarns with
      | kept _ hOther =>
          rw [hSink] at hOther
          cases hOther
          rfl
      | made hNone _ =>
          rw [hKept] at hNone
          cases hNone
  | none =>
      cases hSink : moment.sinkFor moment.journal.level moment.journal.format with
      | error fault =>
          refine .inl ⟨fault, perform_component_of_fault hKept hSink, fun level hWarns => ?_⟩
          cases hWarns with
          | kept hSome _ =>
              rw [hKept] at hSome
              cases hSome
          | made _ hOther =>
              rw [hSink] at hOther
              cases hOther
      | ok sink =>
          have hMade := perform_component_of_new hKept hSink
          refine .inr ⟨_, _, sink, hMade, hSound.renewOne _ _ (single_of_sinkFor hSink),
            kept_component hMade, ?_, rfl, fun level => ⟨fun hWarns => ?_, fun hLevel => ?_⟩⟩
          · simp only [Journal.sinkOf_renewOne, and_self, if_true]
          · cases hWarns with
            | kept hSome _ =>
                rw [hKept] at hSome
                cases hSome
            | made _ hOther =>
                rw [hSink] at hOther
                cases hOther
                rfl
          · exact hLevel ▸ .made hKept hSink

section

variable {after : Session} {manager : Component} {sink : Sink}
  (hSound : after.journal.Sound)
  (hSink : after.journal.sinkOf .config "manager" = some sink)
  (written : Note) (rest : List Storage.Path)

include hSound hSink

/-- A warning below the level of its sink is not written, nor are those behind it. -/
theorem unheard_of_quiet (hKept : after.journal.kept .config "manager" = some manager)
    (hQuiet : Severity.warning.rank < sink.level.rank) :
    (proceed (fun _ => loadDefaultFiles rest)
      (perform (note .config "manager" .warning written) after)).2.diagnostics =
        after.diagnostics := by
  have hMuted : Muted after.journal := ⟨hSound, manager, sink, hKept, hSink, hQuiet⟩
  have hNothing : after.journal.lines (after.record .config "manager" .warning written) = [] :=
    Journal.lines_eq_nil rfl hSink hQuiet
  have hRest := (unwarned_loadDefaultFiles rest (after.say []) hMuted).2
  rw [note, perform_change, hNothing, proceed_ok, hRest]
  exact List.append_nil _

/-- A warning that is written stays written, whatever stands behind it. -/
theorem heard_of_loud (hLoud : sink.level.rank ≤ Severity.warning.rank) :
    (proceed (fun _ => loadDefaultFiles rest)
      (perform (note .config "manager" .warning written) after)).2.diagnostics ≠
        after.diagnostics := by
  have hWritten : after.journal.lines (after.record .config "manager" .warning written) ≠ [] :=
    Journal.lines_ne_nil rfl hSink (hSound.single _ _ _ hSink) hLoud
  have hGrown := grows_loadDefaultFiles rest
    (after.say (after.journal.lines (after.record .config "manager" .warning written)))
  intro hSilent
  rw [note, perform_change, proceed_ok] at hSilent
  unfold Grows at hGrown
  rw [hSilent] at hGrown
  have hLength := hGrown.length_le
  rw [say, List.length_append] at hLength
  have hPositive := List.length_pos_iff.mpr hWritten
  omega

end

/-- The loading of default files is heard exactly if it warns at a level that is written. -/
theorem diagnostics_loadDefaultFiles_iff {session : Session} (hSound : session.journal.Sound)
    (paths : List Storage.Path) :
    (perform (loadDefaultFiles paths) session).2.diagnostics = session.diagnostics ↔
      LoadsQuietly session paths := by
  unfold LoadsQuietly
  cases hMoment : warningMoment paths session with
  | none =>
      refine ⟨fun _ moment level hSome => (by cases hSome), fun _ => ?_⟩
      exact (loadDefaultFiles_of_no_warning hMoment).2
  | some moment =>
      obtain ⟨hJournal, hSaid, _, written, rest, hRun⟩ := loadDefaultFiles_of_warning hMoment
      rw [hRun, warn, perform_bind, ← hSaid]
      rw [← hJournal] at hSound
      rcases manager_spec hSound with ⟨fault, hFault, hNever⟩ |
        ⟨manager, after, sink, hMade, hAfter, hKept, hSink, hSame, hLevel⟩
      · rw [hFault]
        refine ⟨fun _ other level hSome hWarns => ?_, fun _ => rfl⟩
        cases hSome
        exact absurd hWarns (hNever level)
      · obtain ⟨hLayer, hName⟩ := hAfter.keyed.of_kept hKept
        rw [hMade, proceed_ok, hLayer, hName, ← hSame]
        constructor
        · intro hSilent other level hSome hWarns
          cases hSome
          rw [(hLevel level).mp hWarns]
          apply Nat.lt_of_not_le
          intro hLoud
          exact heard_of_loud hAfter hSink written rest hLoud hSilent
        · intro hQuietly
          exact unheard_of_quiet hAfter hSink written rest hKept
            (hQuietly moment sink.level rfl ((hLevel _).mpr rfl))

/-! ### Configuring for errors only -/

theorem sinkFor_of_configured {session : Session} (hEstablished : Established session)
    {level : Option Severity} {format : Option Text}
    (hDone : (perform (configureLogging level format) session).1 = .ok ()) :
    ∃ sink, session.sinkFor level format = .ok sink := by
  cases hSink : session.sinkFor level format with
  | ok sink => exact ⟨sink, rfl⟩
  | error fault =>
      -- There is something to make anew, and that fails.
      have hSame : (session.override level format).sinkFor level format = .error fault := hSink
      have hKept := hEstablished.starting (.langSpec, "loader") (by decide)
      obtain ⟨entry, hEntry, _⟩ := (hEstablished.sound.keyed.listed_iff _ _).mpr hKept
      rw [configureLogging_eq_rebuild] at hDone
      cases hComponents : session.journal.components with
      | nil =>
          rw [hComponents] at hEntry
          cases hEntry
      | cons first rest =>
          rw [hComponents] at hDone
          simp only [rebuild, perform_bind,
            perform_newComponent_of_fault first.2.layer first.2.name hSame, proceed_error] at hDone
          cases hDone

/-- Once logging is configured for errors only, the components of the start are hushed. -/
theorem hushed_of_configured {session : Session} (hEstablished : Established session)
    {format : Option Text}
    (hDone : (perform (configureLogging (some .error) format) session).1 = .ok ()) :
    (perform (configureLogging (some .error) format) session).2.journal.Hushed := by
  obtain ⟨sink, hSink⟩ := sinkFor_of_configured hEstablished hDone
  obtain ⟨lineFormat, _, hLevel⟩ := sinkFor_eq_ok hSink
  intro component hMember
  rw [perform_configureLogging hEstablished.sound.keyed hSink]
  have hListed := (hEstablished.sound.keyed.listed_iff _ _).mpr
    (hEstablished.starting component hMember)
  refine ⟨sink, (Journal.renewAll_of_listed sink _ hListed).1, ?_⟩
  have hError : Severity.warning.rank < Severity.error.rank := by decide
  rw [hLevel]
  exact hError

end Session

namespace CommandLine

open Session (Established Reachable)

/-! ### Runs -/

/-- A quiet request says nothing of its own, whatever it ends in. -/
theorem diagnostics_runRequest_of_quiet {request : Request} (hQuiet : request.given.quiet = true)
    (format : Output.Format) (session : Session) :
    (runRequest format request session).2.diagnostics =
      (Session.perform (respond format request) session).2.diagnostics := by
  obtain ⟨lines, hSilent, hAfter⟩ := session_runRequest format request session
  rw [hAfter, hSilent hQuiet]
  exact List.append_nil _

/-- What a quiet request leaves in writing was written when the settings were loaded. -/
theorem diagnostics_respond_of_quiet {request : Request} (hQuiet : request.given.quiet = true)
    (format : Output.Format) {session : Session} (hEstablished : Established session) :
    (Session.perform (respond format request) session).2.diagnostics =
      (Session.perform (loading request.given) session).2.diagnostics := by
  have hAdvanced := hEstablished.advance (advances_loading request.given session)
  have hLevel : askedLevel request.given = some .error := if_pos hQuiet
  unfold respond
  rw [prepare_eq, hLevel, Session.perform_bind, Session.perform_bind]
  rcases hLoaded : Session.perform (loading request.given) session with ⟨fault | _, loaded⟩
  · rfl
  · rw [hLoaded] at hAdvanced
    have hSame := Session.diagnostics_configureLogging (some .error) none loaded
    have hHushed := @Session.hushed_of_configured loaded hAdvanced none
    rw [Session.proceed_ok]
    rcases hDone : Session.perform (Session.configureLogging (some .error) none) loaded with
      ⟨fault | _, ready⟩
    · rw [hDone] at hSame
      exact hSame
    · rw [hDone] at hSame hHushed
      have hNotes := (onlyNotes_perform request).bind Session.carries_onlyNotes
        (fun content => .ask Session.carries_onlyNotes fun _ => renderResult format content)
      rw [Session.proceed_ok, (hNotes ready).hushed (hHushed rfl)]
      exact hSame

/-- A quiet run writes what the loading of its settings writes and nothing else. So it is silent
exactly if it does not start at all for a blank format, names a settings file, or does not warn
about a default file at a level that is written. -/
theorem quiet_run_silent_iff (session : Session) (hReachable : Reachable session)
    (arguments : List Text) (request : Request) (hAccepted : readLine arguments = .ok request)
    (hQuiet : request.given.quiet = true) :
    ((Session.perform (run arguments) session).2.diagnostics = session.diagnostics ↔
      request.given.format = none ∨
        (∃ path, request.given.config.bind Argument.path? = some path) ∨
        session.LoadsQuietly session.defaultFiles) ∧
      (request.given.format ≠ none →
        (Session.perform (run arguments) session).2.diagnostics =
          (Session.perform (loading request.given) session).2.diagnostics) := by
  have hEstablished := hReachable.established
  cases hFormat : request.given.format with
  | none =>
      rw [perform_run_of_blank hAccepted session hFormat]
      exact ⟨⟨fun _ => .inl rfl, fun _ => rfl⟩, fun hNone => absurd rfl hNone⟩
  | some format =>
      have hWritten : (Session.perform (run arguments) session).2.diagnostics =
          (Session.perform (loading request.given) session).2.diagnostics := by
        rw [perform_run hAccepted session hFormat, diagnostics_runRequest_of_quiet hQuiet,
          diagnostics_respond_of_quiet hQuiet format hEstablished]
      refine ⟨?_, fun _ => hWritten⟩
      rw [hWritten, loading]
      cases hConfig : request.given.config.bind Argument.path? with
      | some path =>
          exact ⟨fun _ => .inr (.inl ⟨path, rfl⟩),
            fun _ => Session.diagnostics_loadSettings path session⟩
      | none =>
          rw [Session.perform_loadDefaultSettings,
            Session.diagnostics_loadDefaultFiles_iff hEstablished.sound]
          refine ⟨fun hQuietly => .inr (.inr hQuietly), ?_⟩
          rintro (hNone | ⟨path, hPath⟩ | hQuietly)
          · cases hNone
          · cases hPath
          · exact hQuietly

/-! ### A list in the place of the settings -/

/-- A session at its start whose first default file holds a list, which is passed over. -/
def listAsSettings : Session :=
  Session.startedWith [(["lsigcheck.yaml"], Session.textFile "- debug\n")]

def quietEncoding : List Text := ["--quiet", "varint", "encode", "1"]

def quietWithSettings : List Text :=
  ["--quiet", "--config", "missing.yaml", "varint", "encode", "1"]

theorem quiet_run_warns_about_list :
    Reachable listAsSettings ∧
      (readLine quietEncoding).toOption.map (fun request => request.given.quiet) = some true ∧
      (Session.perform (run quietEncoding) listAsSettings).1.toOption.map Outcome.code = some 0 ∧
      (Session.perform (run quietEncoding) listAsSettings).2.diagnostics ≠
        listAsSettings.diagnostics := by
  refine ⟨.start _ _ _ _, by decide +kernel, by decide +kernel, by decide +kernel⟩

theorem quiet_run_with_settings_silent :
    ∃ request, Reachable listAsSettings ∧ readLine quietWithSettings = .ok request ∧
      request.given.quiet = true ∧ request.given.format ≠ none ∧
      (∃ path, request.given.config.bind Argument.path? = some path) ∧
      (Session.perform (run quietWithSettings) listAsSettings).2.diagnostics =
        listAsSettings.diagnostics := by
  have hReachable : Reachable listAsSettings := .start _ _ _ _
  have hParts : (readLine quietWithSettings).toOption.map (fun request =>
      (request.given.quiet, request.given.format.isSome,
        (request.given.config.bind Argument.path?).isSome)) = some (true, true, true) := by
    decide +kernel
  obtain ⟨request, hAccepted, hGiven⟩ := exists_request hParts
  rw [Prod.mk.injEq, Prod.mk.injEq] at hGiven
  obtain ⟨hQuiet, hFormat, hPath⟩ := hGiven
  obtain ⟨path, hPath⟩ := Option.isSome_iff_exists.mp hPath
  have hSilent := (quiet_run_silent_iff listAsSettings hReachable quietWithSettings request
    hAccepted hQuiet).1.mpr (.inr (.inl ⟨path, hPath⟩))
  refine ⟨request, hReachable, hAccepted, hQuiet, ?_, ⟨path, hPath⟩, hSilent⟩
  intro hNone
  rw [hNone] at hFormat
  cases hFormat

end CommandLine

end LogicSignature
