/-!
What a run tells about itself while it works.
-/

namespace ApiCompiler

inductive Level
  | debug
  | info
  | warning
  deriving DecidableEq

inductive Topic
  | loading
  | inputs
  | actions
  | connections
  | assembly
  | actionModules
  | emission
  | generation
  deriving DecidableEq

structure LogEntry where
  level : Level
  topic : Topic
  message : String
  deriving DecidableEq

abbrev Log := Array LogEntry

end ApiCompiler
