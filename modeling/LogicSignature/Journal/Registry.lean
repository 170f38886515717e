import LogicSignature.Journal.Event

/-
The journal: named sinks with a level and writers, and the components that write to them. A record
goes to the sink of its component if it is serious enough for that sink, and then on to the sinks
whose names are dotted beginnings of its name, whatever their levels. Making a component sets its
sink up anew, in the stead of what was there.
-/

namespace LogicSignature

namespace Journal

/-- Where the lines of a name go: the least severity that is written, and the writers, each known by
its line format. -/
structure Sink where
  level : Severity
  writers : List LineFormat
deriving DecidableEq, Repr

/-- The line formats of the writers that components bring along. -/
def ownFormats : List LineFormat := [.json, .text]

/-- The sink that a new one makes of an old one: the writers that components brought along before
are taken away. -/
def Sink.renew (old new : Sink) : Sink :=
  { level := new.level
    writers := old.writers.filter (fun format => !ownFormats.contains format) ++ new.writers }

/-- A component that writes to the journal. The serial number tells components apart. -/
structure Component where
  serial : Nat
  name : Text
  layer : Layer
deriving DecidableEq, Repr

def sinkName (layer : Layer) (name : Text) : Text := "lsigcheck." ++ layer.name ++ "." ++ name

def Component.sinkName (component : Component) : Text :=
  Journal.sinkName component.layer component.name

/-- The key under which a component is kept. -/
def componentKey (layer : Layer) (name : Text) : Text := layer.name ++ "." ++ name

end Journal

/-- The sinks by name, the kept components by key, and what overrides the settings. -/
structure Journal where
  sinks : List (Text × Journal.Sink)
  components : List (Text × Journal.Component)
  level : Option Journal.Severity
  format : Option Text
  nextSerial : Nat

namespace Journal

def empty : Journal := ⟨[], [], none, none, 0⟩

def setSink (journal : Journal) (name : Text) (sink : Sink) : Journal :=
  { journal with sinks := Value.setEntry name sink journal.sinks }

/-- The sink of a name once it is set up with a new one. -/
def renewedSink (journal : Journal) (name : Text) (new : Sink) : Sink :=
  match journal.sinks.lookup name with
  | some old => old.renew new
  | none => new

/-- Makes a component and sets up its sink. -/
def construct (journal : Journal) (layer : Layer) (name : Text) (sink : Sink) :
    Component × Journal :=
  let component : Component := ⟨journal.nextSerial, name, layer⟩
  let renewed := journal.renewedSink component.sinkName sink
  (component,
    { journal.setSink component.sinkName renewed with nextSerial := journal.nextSerial + 1 })

def keep (journal : Journal) (key : Text) (component : Component) : Journal :=
  { journal with components := Value.setEntry key component journal.components }

/-- The sinks above a name, nearest first, where the name is given from its end: those named by a
beginning that ends before a dot. The character before a dot that led to no sink is passed over,
even if it is a dot. -/
def sinksAbove (journal : Journal) : Bool → Text → List Sink
  | _, [] => []
  | passing, point :: rest =>
    if point == '.' && !passing then
      match journal.sinks.lookup (rest.reverse) with
      | some sink => sink :: journal.sinksAbove false rest
      | none => journal.sinksAbove true rest
    else journal.sinksAbove false rest

/-- The lines that a record leaves: one for each writer of each sink that it reaches. -/
def lines (journal : Journal) (record : Record) : List Text :=
  match journal.sinks.lookup record.logger with
  | none => []
  | some sink =>
    if record.severity.rank < sink.level.rank then []
    else
      (sink :: journal.sinksAbove false record.logger.reverse).flatMap
        (fun passed => passed.writers.map record.line)

end Journal

end LogicSignature
