namespace BlockCanvas

inductive LogLevel where
  | debug
  | info
  | warning
  | error
deriving DecidableEq

def LogLevel.name : LogLevel → String
  | .debug => "DEBUG"
  | .info => "INFO"
  | .warning => "WARNING"
  | .error => "ERROR"

def LogLevel.rank : LogLevel → Nat
  | .debug => 10
  | .info => 20
  | .warning => 30
  | .error => 40

-- The part of the system that speaks.
inductive Channel where
  | graph
  | tree
  | compiler
  | programs
deriving DecidableEq

structure LogEntry where
  level : LogLevel
  channel : Channel
  message : String
deriving DecidableEq

-- Entries in the order in which they were made.
abbrev Log := List LogEntry

def Log.atLeast (level : LogLevel) (log : Log) : Log :=
  log.filter fun entry => level.rank ≤ entry.level.rank

-- Levels in force after a configuration, and the number of places the root writes to.
structure LogSetup where
  root : LogLevel
  package : LogLevel
  storage : LogLevel
  handlers : Nat
deriving DecidableEq

-- Debugging lowers every level by one; a first handler is added only where there is none.
def LogSetup.configure (handlers : Nat) (debug : Bool) : LogSetup :=
  let level := if debug then .debug else .info
  ⟨level, level, if debug then .info else .warning, max handlers 1⟩

def LogSetup.run (handlers : Nat) : List Bool → List LogSetup
  | [] => []
  | debug :: rest =>
      let setup := configure handlers debug
      setup :: run setup.handlers rest

end BlockCanvas
