/-
# Words for a logger

A request says by a word what a logger is to do with a message and with fields
under the name `extra`:

| word | asks for a record |
| --- | --- |
| `debug`, `info`, `warning`, `error`, `critical` | of that level |
| `warn`, `fatal` | of the level `warning`, `critical` |
| `exception` | of the level `error`, with a trace |

A logger knows other words too, and refuses them: those of the values it holds,
and those of operations that take something else.  A special operation has two
underscores on each side of its word.
-/

import PhoneticBengali.Journal.Record
import PhoneticBengali.Text.LowerCase

namespace PhoneticBengali
namespace LoggerWord

/-- The words that ask for a record, with its level. -/
def levels : List (Text × Level) :=
  [("debug", .debug), ("info", .info), ("warning", .warning), ("warn", .warning),
    ("error", .error), ("exception", .error), ("critical", .critical), ("fatal", .critical)]

/-- What a trace says when no fault is at hand. -/
def emptyTrace : Text :=
  "NoneType: None"

/-- The trace of the record that a word asks for. -/
def trace? (word : Text) : Option Text :=
  if word = "exception" then some emptyTrace else none

/-- The values that a logger of a name holds, with their kinds. -/
def values (source : Text) : List (Text × String) :=
  [("name", "str"), ("level", "int"), ("disabled", "bool"), ("propagate", "bool"),
    ("handlers", "list"), ("filters", "list"), ("manager", "Manager"), ("root", "RootLogger"),
    ("parent", if source = packageSource then "RootLogger" else "Logger"), ("_cache", "dict"),
    ("__dict__", "dict"), ("__doc__", "str"), ("__module__", "str"), ("__weakref__", "NoneType")]

/-- The words of special operations. -/
def special (words : List String) : List Text :=
  words.map fun w => Text.ofString s!"__{w}__"

/-- The operations that take nothing by name and are common to all values. -/
def common : List Text :=
  special ["eq", "ne", "lt", "le", "gt", "ge", "hash", "str", "getattribute", "setattr", "delattr"]

/-- The operations of a logger that take nothing by name. -/
def unnamed : List Text :=
  special ["dir", "format", "getstate", "init_subclass", "reduce_ex", "sizeof"]

/-- The operations that take something by name, but not `extra`, with the names
that messages give them. -/
def withoutExtra : List (Text × String) :=
  [("handle", "Logger.handle"), ("filter", "Filterer.filter"), ("__class__", "Logger.__init__"),
    ("__init__", "Logger.__init__"), ("__reduce__", "Logger.__reduce__"),
    ("__repr__", "Logger.__repr__")]

/-- The operations with a refusal of their own. -/
def others : List (Text × String) :=
  [("log", "Logger.log() missing 1 required positional argument: 'msg'"),
    ("_log", "Logger._log() missing 2 required positional arguments: 'msg' and 'args'"),
    ("__subclasshook__", "__subclasshook__() takes no keyword arguments"),
    ("__new__", "object.__new__(X): X is not a type object (str)")]

/-- How the logger of a name refuses a word, if it knows it and the word asks for
no record. -/
def refusal? (source word : Text) : Option Text :=
  let value := ((values source).lookup word).map fun kind => s!"'{kind}' object is not callable"
  let operation := (withoutExtra.lookup word).map fun name =>
    s!"{name}() got an unexpected keyword argument 'extra'"
  if common.contains word then some ("wrapper " ++ word ++ "() takes no keyword arguments")
  else if unnamed.contains word then some ("Logger." ++ word ++ "() takes no keyword arguments")
  else (value.or (operation.or (others.lookup word))).map Text.ofString

end LoggerWord
end PhoneticBengali
