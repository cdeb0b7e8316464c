/-!
# Settings

Which programs are used and on whose behalf. They come from built-in values, a settings file and
the command line, the later ones winning.
-/

namespace Retrace

structure Settings where
  compiler : String
  /-- The client that runs scripts in a sandbox. -/
  client : String
  /-- The address that deploys and calls contracts. -/
  caller : String
  clientArgs : List String
deriving DecidableEq, Repr

namespace Settings

def builtIn : Settings :=
  ⟨"archetype", "octez-client", "tz1Lc2qBKEWCBeDU8npG6zCeCqpmaegRi6Jg", ["--mode", "mockup"]⟩

/-- Values that the command line gives. -/
structure Overrides where
  compiler : Option String
  client : Option String
  caller : Option String

def override (s : Settings) (o : Overrides) : Settings :=
  { s with
    compiler := o.compiler.getD s.compiler
    client := o.client.getD s.client
    caller := o.caller.getD s.caller }

end Settings
end Retrace
