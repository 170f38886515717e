import LogicSignature.Proofs.TableLifecycle

/-
The settings over whole runs.

After any run a setting shows the text of its variable if the variable is present, else what was
last written to it since the settings were last reset, else its default. A write is a content that
the setting admits, stored at a path of the setting or as the entry of a file; a file that is not
loaded to its end leaves the writes in front of its fault. A setting has paths besides its own, so
that it may change without being named in the usual way.
-/

namespace LogicSignature.Session

open Settings (Leaf Section Write)

/-! ### Storing one content -/

section

variable {session : Session} (hDeclared : session.settings.Declared)

include hDeclared

theorem perform_store_of_admits {leaf : Leaf} {path : Text} (hPath : leaf.IsAt path)
    {content : Content} (hAdmits : leaf.admits content = true) :
    perform (store path content) session =
      (.ok ⟨⟩, { session with settings := session.settings.write leaf content }) := by
  rw [store, perform_bind, perform_get, proceed_ok,
    (Settings.resolve?_eq_leaf_iff _ _ leaf).mpr hPath]
  simp only [Settings.set_of_admits hDeclared hAdmits, perform_set]

theorem perform_store_of_not_admits {leaf : Leaf} {path : Text} (hPath : leaf.IsAt path)
    {content : Content} (hAdmits : leaf.admits content = false) :
    perform (store path content) session =
      (.error (.ofStoring (Settings.inadmissible content)), session) := by
  rw [store, perform_bind, perform_get, proceed_ok,
    (Settings.resolve?_eq_leaf_iff _ _ leaf).mpr hPath]
  simp only [Settings.set_of_not_admits hDeclared hAdmits, perform_throw]

end

theorem perform_store_elsewhere {path : Text} (hElsewhere : ∀ leaf : Leaf, ¬ leaf.IsAt path)
    (content : Content) (session : Session) :
    perform (store path content) session = (.error (.settings (.unknownPath path)), session) := by
  rw [store, perform_bind, perform_get, proceed_ok]
  split
  · rename_i leaf hResolve
    exact absurd ((Settings.resolve?_eq_leaf_iff _ _ leaf).mp hResolve) (hElsewhere leaf)
  · rfl

/-! ### Tables have no part in the settings -/

theorem settings_initTable (path : Option Storage.Path) :
    Keeps Session.settings (initTable path) :=
  .bind ((onlyLogs_buildTable path).keeps fun _ => rfl) fun _ _ => rfl

theorem settings_defaultTable : Keeps Session.settings defaultTable := by
  intro session
  cases hHeld : session.held with
  | none =>
      rw [perform_defaultTable_of_none hHeld]
      exact settings_initTable none session
  | some held => rw [perform_defaultTable_of_some hHeld]

/-! ### Writes of a run -/

def Call.isReset : Call → Bool
  | .resetSettings => true
  | _ => false

/-- What storing a content at a path writes. -/
def writeAt (path : Text) (content : Content) : List Write :=
  match Leaf.ofPath? path with
  | some leaf => if leaf.admits content then [(leaf, content)] else []
  | none => []

/-- What a call writes, in order. -/
def Occurrence.writes (occurrence : Occurrence) : List Write :=
  match occurrence.call with
  | .store path content => writeAt path content
  | .loadSettings path => writesAt occurrence.before.storage path
  | .loadDefaultSettings =>
    (upTo occurrence.before.obstructs occurrence.before.defaultFiles).flatMap
      (writesAt occurrence.before.storage)
  | _ => []

/-- What was written since the settings were last reset. -/
def written (past : List Occurrence) : List Write :=
  (afterLast Call.isReset past).flatMap Occurrence.writes

theorem settings_store {session : Session} (hDeclared : session.settings.Declared) (path : Text)
    (content : Content) :
    (perform (store path content) session).2.settings =
      session.settings.writeAll (writeAt path content) := by
  rw [writeAt]
  cases hLeaf : Leaf.ofPath? path with
  | none =>
      have hElsewhere : ∀ leaf : Leaf, ¬ leaf.IsAt path := by
        intro leaf hPath
        rw [(Settings.ofPath?_eq_some_iff path leaf).mpr hPath] at hLeaf
        cases hLeaf
      rw [perform_store_elsewhere hElsewhere]
      rfl
  | some leaf =>
      have hPath := (Settings.ofPath?_eq_some_iff path leaf).mp hLeaf
      cases hAdmits : leaf.admits content with
      | true =>
          rw [perform_store_of_admits hDeclared hPath hAdmits]
          simp only [hAdmits, if_true]
          rfl
      | false =>
          rw [perform_store_of_not_admits hDeclared hPath hAdmits]
          simp only [hAdmits]
          rfl

/-- What a call other than a reset does to the settings is what it writes. -/
theorem settings_after {session : Session} (hDeclared : session.settings.Declared) {call : Call}
    (hReset : call.isReset = false) :
    (call.after session).settings =
      session.settings.writeAll (Occurrence.writes ⟨session, call⟩) := by
  cases call with
  | store path content => exact settings_store hDeclared path content
  | loadSettings path => exact settings_loadSettings hDeclared path
  | loadDefaultSettings =>
      rw [Call.after, perform_loadDefaultSettings]
      exact (perform_loadDefaultFiles hDeclared session.defaultFiles).2.1
  | resetSettings => cases hReset
  | setVariable name value =>
      exact keeps_setVariable Session.settings (fun _ _ => rfl) name value session
  | writeFile path entry =>
      exact keeps_writeFile Session.settings (fun _ _ => rfl) path entry session
  | removeFile path => exact keeps_removeFile Session.settings (fun _ _ => rfl) path session
  | initTable path => exact settings_initTable path session
  | defaultTable => exact settings_defaultTable session
  | forgetTable => rfl
  | validate limits program arguments =>
      have hSame : (perform (validate none limits program arguments) session).2.settings =
          (perform defaultTable session).2.settings :=
        view_validate_none limits program arguments (fun _ => rfl) session
      exact hSame.trans (settings_defaultTable session)

/-- The settings store what was last written to them and are otherwise as declared. -/
structure Records (past : List Occurrence) (now : Session) : Prop where
  declared : now.settings.Declared
  stored : ∀ leaf, now.settings.stored leaf = Settings.lastTo leaf (written past)

theorem records_step {past : List Occurrence} {now : Session} (call : Call)
    (hRecords : Records past now) : Records (past ++ [⟨now, call⟩]) (call.after now) := by
  cases hReset : call.isReset with
  | true =>
      have hNone : written (past ++ [⟨now, call⟩]) = [] := by
        rw [written, afterLast_snoc_of_mark past hReset]
        rfl
      cases call with
      | resetSettings =>
          refine ⟨Settings.declared_initial, fun leaf => ?_⟩
          rw [hNone]
          exact Settings.stored_initial leaf
      | _ => cases hReset
  | false =>
      have hWritten : written (past ++ [⟨now, call⟩]) =
          written past ++ Occurrence.writes ⟨now, call⟩ := by
        rw [written, afterLast_snoc past hReset, List.flatMap_append, List.flatMap_singleton,
          written]
      have hSettings := settings_after hRecords.declared hReset
      refine ⟨?_, fun leaf => ?_⟩
      · rw [hSettings]
        exact hRecords.declared.writeAll _
      · rw [hSettings, Settings.stored_writeAll, hRecords.stored, hWritten, Settings.lastTo_append]

theorem records_after_calls {session : Session} (hStart : session.settings = Settings.initial)
    (calls : List Call) : Records (history calls session) (runCalls calls session) := by
  have hFirst : Records [] session := by
    refine ⟨hStart ▸ Settings.declared_initial, fun leaf => ?_⟩
    rw [hStart]
    exact Settings.stored_initial leaf
  exact holds_after_calls Records hFirst (fun _ _ call hRecords => records_step call hRecords) calls

/-! ### What the settings show -/

/-- What a setting shows after a run: the text of its variable, else what was last written to it
since the last reset, else its default. -/
def shownAfter (past : List Occurrence) (now : Session) (leaf : Leaf) : Content :=
  Settings.shownContent now.environment (Settings.lastTo leaf (written past)) leaf

theorem Records.shown_eq {past : List Occurrence} {now : Session} (hRecords : Records past now) :
    now.shown = shownAfter past now :=
  funext fun leaf => by rw [shown, hRecords.stored, shownAfter]

theorem shown_eq_of_stored {before after : Session} {leaf : Leaf}
    (hStored : after.settings.stored leaf = before.settings.stored leaf)
    (hVariable : after.environment.lookup leaf.variableName =
      before.environment.lookup leaf.variableName) :
    after.shown leaf = before.shown leaf := by
  rw [shown, shown, Settings.shownContent, Settings.shownContent, hStored, hVariable]

theorem stored_after_of_not_mem {now : Session} (hDeclared : now.settings.Declared) {call : Call}
    {leaf : Leaf} (hReset : call.isReset = false)
    (hNone : ∀ content, (leaf, content) ∉ Occurrence.writes ⟨now, call⟩) :
    (call.after now).settings.stored leaf = now.settings.stored leaf := by
  rw [settings_after hDeclared hReset, Settings.stored_writeAll, Settings.lastTo_eq_none hNone,
    Option.none_or]

/-- What the settings of a session with a past obey. -/
structure SettingsLaws (past : List Occurrence) (now : Session) : Prop where
  leaves : ∀ (leaf : Leaf) (path : Text), leaf.IsAt path →
    perform (contentAt path) now = (.ok (shownAfter past now leaf), now)
  sections : ∀ (group : Section) (path : Text), group.IsAt path →
    perform (contentAt path) now =
      (.ok (.record (group.leaves.map fun leaf => (leaf.name, shownAfter past now leaf))), now)
  whole :
    perform settingsContent now =
      (.ok (.record (Section.all.map fun group =>
        (group.name,
          .record (group.leaves.map fun leaf => (leaf.name, shownAfter past now leaf))))), now)
  /-- A refused content leaves no trace. -/
  refused : ∀ (leaf : Leaf) (path : Text) content, leaf.IsAt path → leaf.admits content = false →
    ∃ fault, perform (store path content) now = (.error fault, now)
  /-- A path of no setting is refused. -/
  elsewhere : ∀ (path : Text) content, (∀ leaf : Leaf, ¬ leaf.IsAt path) →
    perform (store path content) now = (.error (.settings (.unknownPath path)), now)
  /-- A content that is stored changes the setting at its path and no other. -/
  stored : ∀ (leaf : Leaf) (path : Text) content, leaf.IsAt path → leaf.admits content = true →
    (perform (store path content) now).1 = .ok () ∧
      ∀ other : Leaf,
        (perform (contentAt other.path) (perform (store path content) now).2).1 =
          if other = leaf then
            .ok (Settings.shownContent now.environment (some content) leaf)
          else (perform (contentAt other.path) now).1
  /-- A call that does not write to a setting changes it only by a reset or by its variable. -/
  untouched : ∀ (call : Call) (leaf : Leaf), call.isReset = false →
    (∀ content, (leaf, content) ∉ Occurrence.writes ⟨now, call⟩) →
    (call.after now).environment.lookup leaf.variableName =
      now.environment.lookup leaf.variableName →
    (perform (contentAt leaf.path) (call.after now)).1 = (perform (contentAt leaf.path) now).1

/-- Over every run, a setting shows its variable, else the last write since the last reset, else its
default, and sections and records show the same. A write is made at any path of the setting: its own
path is one, and the only one without a return. -/
theorem settings_over_runs (session : Session) (hStart : session.settings = Settings.initial)
    (calls : List Call) :
    SettingsLaws (history calls session) (runCalls calls session) ∧
      (∀ group : Section, group.IsAt group.name) ∧ (∀ leaf : Leaf, leaf.IsAt leaf.path) ∧
      ∀ path : Text, Settings.ownerName ∉ Text.splitOn '.' path →
        ∀ leaf : Leaf, leaf.IsAt path ↔ path = leaf.path := by
  have hRecords := records_after_calls hStart calls
  generalize history calls session = past at hRecords ⊢
  generalize runCalls calls session = now at hRecords ⊢
  have hShown := hRecords.shown_eq
  have hDeclared := hRecords.declared
  refine ⟨⟨?_, ?_, ?_, ?_, ?_, ?_, ?_⟩, Settings.isAt_name, Settings.isAt_path,
    fun path => Settings.isAt_iff_of_no_return⟩
  · intro leaf path hPath
    rw [perform_contentAt_of_isAt hDeclared hPath, hShown]
  · intro group path hPath
    rw [perform_contentAt_section_of_isAt hDeclared hPath, hShown]
  · rw [perform_settingsContent hDeclared, hShown]
  · intro leaf path content hPath hAdmits
    exact ⟨_, perform_store_of_not_admits hDeclared hPath hAdmits⟩
  · intro path content hElsewhere
    exact perform_store_elsewhere hElsewhere content now
  · intro leaf path content hPath hAdmits
    rw [perform_store_of_admits hDeclared hPath hAdmits]
    refine ⟨rfl, fun other => ?_⟩
    rw [perform_contentAt_leaf (hDeclared.write leaf content), perform_contentAt_leaf hDeclared]
    split
    · rename_i hSame
      rw [hSame, shown, Settings.stored_write, if_pos rfl]
    · rename_i hOther
      refine congrArg Except.ok (shown_eq_of_stored ?_ rfl)
      rw [Settings.stored_write, if_neg hOther]
  · intro call leaf hReset hNone hVariable
    have hAfter := (records_step call hRecords).declared
    rw [perform_contentAt_leaf hAfter, perform_contentAt_leaf hDeclared]
    exact congrArg Except.ok
      (shown_eq_of_stored (stored_after_of_not_mem hDeclared hReset hNone) hVariable)

/-- A level is stored, a file is loaded up to its fault, another level is refused, and the variable
of the format is set to nothing. -/
def refusedTwice : List Call :=
  [.store "observability.log_level" (.text "error"), .loadSettings halfFile,
    .store "observability.log_level" (.text "loud"), .setVariable "LSIG_LOG_FORMAT" (some "")]

theorem faulty_file_outranks_stored_level :
    goodThenFaulty.settings = Settings.initial ∧
      (perform (contentAt "observability.log_level") (runCalls refusedTwice goodThenFaulty)).1 =
        .ok (.text "debug") ∧
      (perform (contentAt "observability.log_format") (runCalls refusedTwice goodThenFaulty)).1 =
        .ok (.text "") := by
  obtain ⟨hLaws, -, hOwn, -⟩ := settings_over_runs goodThenFaulty rfl refusedTwice
  have hLevel : Leaf.logLevel.path = "observability.log_level" := by decide
  have hFormat : Leaf.logFormat.path = "observability.log_format" := by decide
  refine ⟨rfl, ?_, ?_⟩
  · rw [← hLevel, hLaws.leaves _ _ (hOwn _)]
    exact eq_of_isText (by decide +kernel)
  · rw [← hFormat, hLaws.leaves _ _ (hOwn _)]
    exact eq_of_isText (by decide +kernel)

/-- A path of the level that goes through a method of the settings. -/
def roundabout : Text := "to_dict.__self__.observability.log_level"

/-- The level changes by a write to a path that is not its own. -/
theorem level_written_at_another_path :
    (∀ leaf : Leaf, roundabout ≠ leaf.path) ∧
      (perform (contentAt Leaf.logLevel.path) (startedWith [])).1 = .ok (.text "warning") ∧
      (perform (store roundabout (.text "debug")) (startedWith [])).1 = .ok () ∧
      (perform (contentAt Leaf.logLevel.path)
        (perform (store roundabout (.text "debug")) (startedWith [])).2).1 =
          .ok (.text "debug") := by
  refine ⟨fun leaf => by cases leaf <;> decide, rfl, rfl, rfl⟩

end LogicSignature.Session
