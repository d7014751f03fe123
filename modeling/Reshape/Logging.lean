import Reshape.Text.Case
import Reshape.Value.Entries

namespace Reshape.Logging

/-- What a handler writes to. -/
inductive Sink where
  /-- The stream for errors, emptied after every record. -/
  | errorStream
  | file
deriving DecidableEq, Repr

structure Handler where
  sink : Sink
  level : Nat
deriving DecidableEq, Repr

structure Logger where
  level : Nat
  /-- Whether records go on to the loggers above. -/
  propagate : Bool
  handlers : List Handler
deriving DecidableEq, Repr

namespace Logger

def initial : Logger :=
  ⟨0, true, []⟩

end Logger

/-- The levels by their names. -/
def levels : List (String × Nat) :=
  [("CRITICAL", 50), ("FATAL", 50), ("ERROR", 40), ("WARN", 30), ("WARNING", 30),
    ("INFO", 20), ("DEBUG", 10), ("NOTSET", 0)]

def debugLevel : Nat :=
  10

def defaultLevel : Nat :=
  30

/-- A name in capitals; no level has a name with characters that have no capital in
ASCII. -/
def capitals? (name : String) : Option String :=
  (name.toList.mapM Text.asciiCapital?).map String.ofList

/-- The level that a name in any case stands for. -/
def levelNamed (name : String) : Nat :=
  ((capitals? name).bind fun capitals => levels.lookup capitals).getD defaultLevel

/-- What the variables of an environment ask for. -/
structure Options where
  level : Nat
  toFile : Bool
deriving DecidableEq, Repr

def Options.ofEnvironment (environment : Entries String) : Options :=
  ⟨((Entries.find? environment "DTS_LOG_LEVEL").map levelNamed).getD defaultLevel,
    ((Entries.find? environment "DTS_DEBUG_LOG").getD "") != ""⟩

/-- The loggers of the library, of its traces, and one that can write to the traces
too. -/
structure Loggers where
  library : Logger
  trace : Logger
  attached : Logger
deriving DecidableEq, Repr

namespace Loggers

def initial : Loggers :=
  ⟨.initial, .initial, .initial⟩

/-- Sets up the logger of the library. -/
def configure (options : Options) (loggers : Loggers) : Loggers :=
  if loggers.library.handlers.isEmpty then
    { loggers with
      library :=
        { loggers.library with
          level := options.level
          handlers := [⟨.errorStream, options.level⟩] } }
  else loggers

/-- The handlers for traces. -/
def traceHandlers (options : Options) : List Handler :=
  (if options.toFile then [⟨.file, debugLevel⟩] else []) ++ [⟨.errorStream, debugLevel⟩]

/-- Sets up the logger for traces. -/
def configureTrace (options : Options) (loggers : Loggers) : Loggers :=
  if loggers.trace.handlers.isEmpty then
    { loggers with trace := ⟨debugLevel, false, traceHandlers options⟩ }
  else loggers

/-- Lets the third logger write to the traces. -/
def attach (options : Options) (loggers : Loggers) : Loggers :=
  let loggers := loggers.configureTrace options
  let added := loggers.trace.handlers.filter fun h => !loggers.attached.handlers.contains h
  { loggers with
    attached :=
      { loggers.attached with
        level := debugLevel
        handlers := loggers.attached.handlers ++ added } }

/-- The files that are written to. -/
def files (loggers : Loggers) : List String :=
  if loggers.trace.handlers.any fun h => h.sink == .file then ["debug_trace.log"] else []

end Loggers

end Reshape.Logging
