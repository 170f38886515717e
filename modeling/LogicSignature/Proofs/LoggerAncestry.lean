import LogicSignature.Proofs.LoggerHistory

/-
Records and the loggers above.

What a logger says is written by its own writer if it is serious enough, and then by the writers of
the loggers whose names are dotted beginnings of its name, whatever their levels. So it is written
once exactly if no logger above was ever made.
-/

namespace LogicSignature

namespace Journal

/-! ### Names above a name -/

/-- The dots at the start of a text. -/
def leadingDots (text : Text) : Nat := (text.takeWhile (· == .char '.')).length

/-- A name above another one: it ends in front of a dot behind which no further dot stands, or an
even number of them. Of a row of dots every second one is passed over. -/
def StandsAbove (upper name : Text) : Prop :=
  ∃ lower, name = upper ++ .char '.' :: lower ∧ leadingDots lower % 2 = 0

theorem leadingDots_dot (text : Text) : leadingDots (.char '.' :: text) = leadingDots text + 1 := by
  rw [leadingDots, List.takeWhile_cons_of_pos (by simp), List.length_cons, leadingDots]

theorem leadingDots_of_ne {point : CodePoint} (hPoint : point ≠ .char '.') (text : Text) :
    leadingDots (point :: text) = 0 := by
  rw [leadingDots, List.takeWhile_cons_of_neg (by simpa using hPoint), List.length_nil]

variable {journal : Journal} {record : Record} {layer : Layer} {name : Text} {sink : Sink}

/-- No sink stands in front of a dot that is looked at, in a name that is given from its end and in
front of what stands behind it. -/
def NoneAbove (journal : Journal) (reversed behind : Text) : Prop :=
  ∀ taken under, reversed = taken ++ .char '.' :: under →
    leadingDots (taken.reverse ++ behind) % 2 = 0 → journal.sinks.lookup under.reverse = none

/-- A dot of the longer name is its last point, or one of the rest. -/
theorem noneAbove_cons (point : CodePoint) (rest behind : Text) :
    NoneAbove journal (point :: rest) behind ↔
      (point = .char '.' → leadingDots behind % 2 = 0 →
        journal.sinks.lookup rest.reverse = none) ∧
      NoneAbove journal rest (point :: behind) := by
  constructor
  · intro hAll
    refine ⟨fun hDot hEven => hAll [] rest (by rw [hDot]; rfl) hEven, ?_⟩
    intro taken under hRest hEven
    refine hAll (point :: taken) under (by rw [hRest]; rfl) ?_
    rwa [List.reverse_cons, List.append_assoc]
  · rintro ⟨hHere, hLater⟩ taken under hSplit hEven
    cases taken with
    | nil =>
        cases hSplit
        exact hHere rfl hEven
    | cons first taken =>
        cases hSplit
        refine hLater taken under rfl ?_
        rwa [List.reverse_cons, List.append_assoc] at hEven

/-- What stands behind a name decides whether its last point is passed over. -/
theorem sinksAbove_eq_nil_iff_noneAbove {passing : Bool} (reversed behind : Text)
    (hPassing : passing = true ↔ leadingDots behind % 2 = 1) :
    journal.sinksAbove passing reversed = [] ↔ NoneAbove journal reversed behind := by
  induction reversed generalizing passing behind with
  | nil =>
      simp only [sinksAbove, true_iff]
      intro taken under hSplit
      exact absurd hSplit (by simp)
  | cons point rest ih =>
      rw [noneAbove_cons]
      by_cases hDot : point = .char '.'
      · subst hDot
        have hNext := leadingDots_dot behind
        cases passing with
        | true =>
            have hOdd : leadingDots behind % 2 = 1 := hPassing.mp rfl
            rw [sinksAbove, if_neg (by simp), ih (.char '.' :: behind) (by simp; omega)]
            exact ⟨fun hLater => ⟨fun _ hEven => absurd hEven (by omega), hLater⟩, And.right⟩
        | false =>
            have hEven : leadingDots behind % 2 = 0 := by
              have hNot := mt hPassing.mpr Bool.false_ne_true
              omega
            rw [sinksAbove, if_pos (by simp)]
            cases hFound : journal.sinks.lookup rest.reverse with
            | some found =>
                refine ⟨fun hNil => (by cases hNil), fun hNone => ?_⟩
                cases hNone.1 rfl hEven
            | none =>
                rw [ih (.char '.' :: behind) (by simp; omega)]
                exact ⟨fun hLater => ⟨fun _ _ => rfl, hLater⟩, And.right⟩
      · have hNext := leadingDots_of_ne hDot behind
        rw [sinksAbove, if_neg (by simp [hDot]), ih (point :: behind) (by simp [hNext])]
        exact ⟨fun hLater => ⟨fun hSame => absurd hSame hDot, hLater⟩, And.right⟩

theorem sinksAbove_eq_nil_iff (name : Text) :
    journal.sinksAbove false name.reverse = [] ↔
      ∀ upper, StandsAbove upper name → journal.sinks.lookup upper = none := by
  rw [sinksAbove_eq_nil_iff_noneAbove name.reverse [] (by simp [leadingDots])]
  constructor
  · rintro hAll upper ⟨lower, hName, hEven⟩
    have hSplit : name.reverse = lower.reverse ++ .char '.' :: upper.reverse := by
      rw [hName, List.reverse_append, List.reverse_cons, List.append_assoc, List.singleton_append]
    have hNone := hAll lower.reverse upper.reverse hSplit
      (by rwa [List.reverse_reverse, List.append_nil])
    rwa [List.reverse_reverse] at hNone
  · intro hAll taken under hSplit hEven
    refine hAll under.reverse ⟨taken.reverse, ?_, by rwa [List.append_nil] at hEven⟩
    rw [← List.reverse_reverse name, hSplit, List.reverse_append, List.reverse_cons,
      List.append_assoc, List.singleton_append]

theorem exists_lookup_of_mem_sinksAbove {passing : Bool} {reversed : Text}
    (hAbove : sink ∈ journal.sinksAbove passing reversed) :
    ∃ upper, journal.sinks.lookup upper = some sink := by
  fun_induction sinksAbove journal passing reversed with
  | case1 => cases hAbove
  | case2 passing point rest _ found hFound ih =>
      rcases List.mem_cons.mp hAbove with rfl | hFurther
      · exact ⟨_, hFound⟩
      · exact ih hFurther
  | case3 passing point rest _ hNone ih => exact ih hAbove
  | case4 passing point rest _ ih => exact ih hAbove

/-! ### Loggers above a logger -/

theorem standsAbove_sinkName {other : Layer} {otherName : Text} :
    StandsAbove (sinkName other otherName) (sinkName layer name) ↔
      other = layer ∧ StandsAbove otherName name := by
  have hLonger : ∀ lower, sinkName other otherName ++ .char '.' :: lower =
      sinkName other (otherName ++ .char '.' :: lower) := by
    intro lower
    rw [sinkName, sinkName, List.append_assoc]
  constructor
  · rintro ⟨lower, hName, hEven⟩
    rw [hLonger, sinkName_inj] at hName
    exact ⟨hName.1.symm, lower, hName.2, hEven⟩
  · rintro ⟨rfl, lower, rfl, hEven⟩
    exact ⟨lower, (hLonger lower).symm, hEven⟩

theorem exists_formats (record : Record) {sinks : List Sink}
    (hSingle : ∀ found ∈ sinks, ∃ own, found.writers = [own]) :
    ∃ formats : List LineFormat, formats.length = sinks.length ∧
      sinks.flatMap (fun passed => passed.writers.map record.line) = formats.map record.line := by
  induction sinks with
  | nil => exact ⟨[], rfl, rfl⟩
  | cons first rest ih =>
      obtain ⟨⟨own, hOwn⟩, hRest⟩ := List.forall_mem_cons.mp hSingle
      obtain ⟨formats, hCount, hLines⟩ := ih hRest
      refine ⟨own :: formats, by rw [List.length_cons, List.length_cons, hCount], ?_⟩
      rw [List.flatMap_cons, hOwn, hLines, List.map_cons, List.map_cons, List.map_nil,
        List.singleton_append]

section

variable (hSound : journal.Sound)

include hSound

theorem Sound.exists_sinkOf {upper : Text} (hLookup : journal.sinks.lookup upper = some sink) :
    ∃ layer name, upper = sinkName layer name ∧ journal.sinkOf layer name = some sink := by
  obtain ⟨front, behind, hSplit, _⟩ := List.lookup_eq_some_iff.mp hLookup
  obtain ⟨layer, name, hUpper⟩ := hSound.named (upper, sink) (by simp [hSplit])
  refine ⟨layer, name, hUpper, ?_⟩
  rw [sinkOf, ← show upper = sinkName layer name from hUpper]
  exact hLookup

theorem Sound.sinksAbove_eq_nil_iff (layer : Layer) (name : Text) :
    journal.sinksAbove false (sinkName layer name).reverse = [] ↔
      ∀ upper, StandsAbove upper name → journal.sinkOf layer upper = none := by
  rw [Journal.sinksAbove_eq_nil_iff]
  constructor
  · intro hNone upper hAbove
    exact hNone _ (standsAbove_sinkName.mpr ⟨rfl, hAbove⟩)
  · intro hNone upper hAbove
    cases hLookup : journal.sinks.lookup upper with
    | none => rfl
    | some sink =>
        obtain ⟨other, otherName, rfl, hSink⟩ := hSound.exists_sinkOf hLookup
        obtain ⟨rfl, hOther⟩ := standsAbove_sinkName.mp hAbove
        rw [hNone otherName hOther] at hSink
        cases hSink

/-- A record that is serious enough is written by the writer of its logger, and by one writer for
each logger above. -/
theorem Sound.lines_eq {format : LineFormat} (hLogger : record.logger = sinkName layer name)
    (hSink : journal.sinkOf layer name = some sink) (hWriters : sink.writers = [format])
    (hHigh : sink.level.rank ≤ record.severity.rank) :
    ∃ others : List LineFormat,
      others.length = (journal.sinksAbove false (sinkName layer name).reverse).length ∧
      journal.lines record = (format :: others).map record.line := by
  have hSingle : ∀ found ∈ journal.sinksAbove false (sinkName layer name).reverse,
      ∃ own, found.writers = [own] := by
    intro found hFound
    obtain ⟨upper, hLookup⟩ := exists_lookup_of_mem_sinksAbove hFound
    obtain ⟨other, otherName, _, hOther⟩ := hSound.exists_sinkOf hLookup
    exact hSound.single other otherName found hOther
  obtain ⟨others, hCount, hLines⟩ := exists_formats record hSingle
  refine ⟨others, hCount, ?_⟩
  unfold lines
  rw [hLogger, show journal.sinks.lookup (sinkName layer name) = some sink from hSink]
  simp only [Nat.not_lt.mpr hHigh, if_false, List.flatMap_cons, hWriters, hLines, List.map_cons,
    List.map_nil, List.singleton_append]

end

/-! ### Sayings -/

/-- The names that the call of a saying has taken. -/
def Saying.takenNames : Saying → List Text
  | .message _ _ _ => ["self", "message", "level"]
  | .operation _ _ _ _ =>
    ["self", "name", "duration_ms", "success", "operation", "level", "message"]

def Saying.values : Saying → List (Text × Value)
  | .message _ _ values => values
  | .operation _ _ _ values => values

/-- No value of a saying has a taken name. -/
def Saying.IsFree (saying : Saying) : Prop :=
  ∀ entry ∈ saying.values, entry.1 ∉ saying.takenNames

theorem refuse_eq_ok {taken : List Text} {values : List (Text × Value)} (clash : Text → Clash)
    (hFree : ∀ entry ∈ values, entry.1 ∉ taken) : refuse taken values clash = .ok () := by
  have hNone : firstTaken taken values = none := by
    rw [firstTaken, List.find?_eq_none]
    intro taking hTaking
    obtain ⟨entry, hEntry, rfl⟩ := List.mem_map.mp hTaking
    simpa using hFree entry hEntry
  rw [refuse, hNone]

theorem Saying.IsFree.exists_note {saying : Saying} (hFree : saying.IsFree) :
    ∃ note, saying.note = .ok note := by
  have hRefuse : ∀ (taken : List Text) (clash : Text → Clash), taken ⊆ saying.takenNames →
      refuse taken saying.values clash = .ok () := by
    intro taken clash hTaken
    exact refuse_eq_ok clash fun entry hEntry hMember => hFree entry hEntry (hTaken hMember)
  cases saying with
  | message severity text values =>
      simp only [Saying.takenNames, Saying.values] at hRefuse
      rw [Saying.note, Note.ofMessage, hRefuse _ _ (by decide), hRefuse _ _ (by decide)]
      exact ⟨_, rfl⟩
  | operation name duration succeeded values =>
      simp only [Saying.takenNames, Saying.values] at hRefuse
      rw [Saying.note, Note.ofOperationWith, hRefuse _ _ (by decide), hRefuse _ _ (by decide),
        hRefuse _ _ (by decide)]
      exact ⟨_, rfl⟩

end Journal

namespace Session

open Journal (Component LineFormat Note Saying StandsAbove)

theorem perform_speak {saying : Saying} {written : Note} (hNote : saying.note = .ok written)
    (component : Component) (session : Session) :
    perform (speak component saying) session =
      (.ok (), session.say (session.journal.lines
        (session.record component.layer component.name saying.severity written))) := by
  rw [speak, perform_bind, perform_ask, hNote]
  rfl

/-- A logger that was never made has no sink. -/
theorem Tracks.lastMaking_eq_none_iff {first now : Session} {calls : List LogCall}
    (hTracks : Tracks first calls now) (layer : Journal.Layer) (name : Text) :
    lastMaking layer name first calls = none ↔ now.journal.sinkOf layer name = none := by
  have hRelated := hTracks.sinks layer name
  generalize lastMaking layer name first calls = made at hRelated ⊢
  generalize now.journal.sinkOf layer name = sink at hRelated ⊢
  cases hRelated with
  | none => exact ⟨fun _ => rfl, fun _ => rfl⟩
  | some hYields => exact ⟨fun hNone => (nomatch hNone), fun hNone => (nomatch hNone)⟩

/-- Over every run, what a logger says is written if it is at or above the level that the logger was
last made with, and is lost otherwise. What is written is written by the logger itself and by all
loggers above, so once exactly if none of these was ever made. -/
theorem said_over_runs (storage : Storage) (homeText : Text) (environment : Settings.Environment)
    (clock : Clock) (calls : List LogCall) (component : Component) {making : Making}
    (hMade : lastMaking component.layer component.name
      (start storage homeText environment clock) calls = some making)
    (saying : Saying) (hFree : saying.IsFree) :
    let first := start storage homeText environment clock
    let now := afterCalls first calls
    ∃ sink format written, making.Yields sink ∧ sink.writers = [format] ∧
      saying.note = .ok written ∧
      (saying.severity.rank < sink.level.rank →
        perform (speak component saying) now = (.ok (), now)) ∧
      (sink.level.rank ≤ saying.severity.rank →
        ∃ others : List LineFormat,
          perform (speak component saying) now =
            (.ok (), now.say ((format :: others).map
              (now.record component.layer component.name saying.severity written).line)) ∧
          (others = [] ↔ ∀ upper, StandsAbove upper component.name →
            lastMaking component.layer upper first calls = none)) := by
  intro first now
  have hTracks : Tracks first calls now :=
    tracks_afterCalls storage homeText environment clock calls
  obtain ⟨written, hNote⟩ := hFree.exists_note
  have hOwn := hTracks.sinks component.layer component.name
  rw [hMade] at hOwn
  cases hSink : now.journal.sinkOf component.layer component.name with
  | none =>
      rw [hSink] at hOwn
      cases hOwn
  | some sink =>
      rw [hSink] at hOwn
      obtain ⟨hYields⟩ := hOwn
      obtain ⟨format, hWriters, _⟩ := hYields.writer
      refine ⟨sink, format, written, hYields, hWriters, hNote, fun hLow => ?_, fun hHigh => ?_⟩
      · rw [perform_speak hNote, Journal.lines_eq_nil rfl hSink hLow, say, List.append_nil]
      · have hLogger : (now.record component.layer component.name saying.severity written).logger =
            Journal.sinkName component.layer component.name := rfl
        obtain ⟨others, hCount, hLines⟩ := hTracks.sound.lines_eq hLogger hSink hWriters hHigh
        refine ⟨others, by rw [perform_speak hNote, hLines], ?_⟩
        rw [← List.length_eq_zero_iff, hCount, List.length_eq_zero_iff,
          hTracks.sound.sinksAbove_eq_nil_iff]
        simp only [hTracks.lastMaking_eq_none_iff]

/-- An error of a logger, without named values. -/
def plainError : Saying := .message .error "refused" []

theorem plainError_isFree : plainError.IsFree := fun _ hEntry => nomatch hEntry

/-- The only name above `a..b` ends with a dot: the dot behind `a` is passed over. -/
theorem eq_of_standsAbove_two_dots {upper : Text} (hAbove : StandsAbove upper "a..b") :
    upper = "a." := by
  obtain ⟨lower, hName, hEven⟩ := hAbove
  have hUpper : upper = ("a..b" : Text).take upper.length := by rw [hName, List.take_left]
  have hBehind : ("a..b" : Text).drop upper.length = .char '.' :: lower := by
    rw [hName, List.drop_left]
  have hLength : upper.length < 4 := by
    have hTotal := congrArg List.length hBehind
    rw [List.length_drop, List.length_cons] at hTotal
    exact Nat.lt_of_sub_pos (hTotal ▸ Nat.succ_pos _)
  revert hUpper hBehind hLength
  generalize upper.length = length
  intro hUpper hBehind hLength
  match length, hLength with
  | 0, _ => cases hBehind
  | 1, _ =>
      cases hBehind
      cases hEven
  | 2, _ => exact hUpper
  | 3, _ => cases hBehind

theorem said_once_behind_two_dots :
    let calls : List LogCall :=
      [.newComponent .cli "a..b" (some .info) (some "json"), .component .cli "a"]
    (lastMaking .cli "a..b" (startedWith []) calls).isSome ∧ plainError.IsFree ∧
      ∃ line, perform (speak ⟨4, "a..b", .cli⟩ plainError) (afterCalls (startedWith []) calls) =
        (.ok (), (afterCalls (startedWith []) calls).say [line]) := by
  intro calls
  obtain ⟨moment, hMade⟩ : ∃ moment, lastMaking .cli "a..b" (startedWith []) calls =
      some ⟨some .info, some "json", moment⟩ := ⟨_, rfl⟩
  obtain ⟨sink, format, written, hYields, _, _, _, hWritten⟩ :=
    said_over_runs _ _ _ _ calls ⟨4, "a..b", .cli⟩ hMade plainError plainError_isFree
  have hLevel : sink.level.rank ≤ plainError.severity.rank := by
    have hAtLevel := hYields.level
    generalize sink.level = level at hAtLevel ⊢
    cases hAtLevel with
    | asked hAsked =>
        cases hAsked
        decide
    | configured hOpen _ => cases hOpen
    | unknown hOpen _ => cases hOpen
  obtain ⟨others, hPerform, hOthers⟩ := hWritten hLevel
  have hNone : others = [] := by
    apply hOthers.mpr
    intro upper hAbove
    rw [eq_of_standsAbove_two_dots hAbove]
    rfl
  subst hNone
  exact ⟨rfl, plainError_isFree, _, hPerform⟩

/-- The logger `a` writes what the logger `a.b` says once more. -/
theorem said_twice_below_another :
    let now := afterCalls (startedWith []) [.component .cli "a.b", .component .cli "a"]
    let line := (now.record .cli "a.b" .error { message := "refused" }).line .json
    plainError.IsFree ∧ now.diagnostics = [] ∧
      (perform (speak ⟨4, "a.b", .cli⟩ plainError) now).2.diagnostics = [line, line] :=
  ⟨plainError_isFree, rfl, by decide +kernel⟩

end Session

end LogicSignature
