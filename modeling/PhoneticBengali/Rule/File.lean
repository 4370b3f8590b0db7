/-
# Rule files

A rule table is read from a YAML file.
-/

import PhoneticBengali.Files.Read
import PhoneticBengali.Rule.Grammar

namespace PhoneticBengali

/-- Why there is no rule table. -/
inductive RuleFileFault where
  | read (fault : ReadFault)
  | grammar (fault : GrammarFault)
deriving Repr

namespace RuleFileFault

/-- What is said about a fault. -/
def message : RuleFileFault → Text
  | read fault => fault.message
  | grammar fault => fault.message

end RuleFileFault

/-- The rule table in the file at a path. -/
def RuleTable.ofFile (reader : YamlReader) (files : FileTree) (path : Path) :
    Attempt RuleFileFault RuleTable :=
  match files.readYaml reader path with
  | .error fault => .fail (.read fault)
  | .ok raw => (RuleTable.ofDocument raw).map (Except.mapError .grammar)

end PhoneticBengali
