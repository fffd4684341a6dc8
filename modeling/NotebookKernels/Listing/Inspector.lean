import NotebookKernels.Listing.Variable
import NotebookKernels.Json.Reader
import NotebookKernels.Text.Lines

/- Listing the variables of a live kernel.

   The kernel runs a script that prints a JSON array of records as its last line;
   `Inspector.parse` finds that line and keeps the records that read and that are
   not internal to the interpreter. Which script, and which names are internal,
   depends on the language. -/
namespace NotebookKernels
open Json

/-- The languages whose variables can be listed. -/
inductive Inspector where
  | python
  deriving DecidableEq, Repr

namespace Inspector

/-- The inspector for a language, if there is one. -/
def forLanguage? (language : String) : Option Inspector :=
  if language = "python" then some .python else none

def language : Inspector → String
  | .python => "python"

/-- Names that the interactive interpreter itself defines. -/
def pythonInternals : List String :=
  ["In", "Out", "get_ipython", "exit", "quit", "_", "__", "___", "_i", "_ii", "_iii", "_oh", "_dh",
    "_sh"]

def pythonScript : String :=
  "\nimport json as _gantry_json\n" ++
  "import sys as _gantry_sys\n" ++
  "\n" ++
  "def _gantry_var_info():\n" ++
  "    result = []\n" ++
  "    for name, value in list(get_ipython().user_ns.items()):\n" ++
  "        if name.startswith('_') or name in ('In', 'Out', 'get_ipython', 'exit', 'quit'):\n" ++
  "            continue\n" ++
  "        try:\n" ++
  "            if hasattr(value, 'shape'):\n" ++
  "                shape = str(value.shape)\n" ++
  "            elif hasattr(value, '__len__'):\n" ++
  "                shape = 'len=%d' % len(value)\n" ++
  "            else:\n" ++
  "                shape = ''\n" ++
  "            text = str(value)\n" ++
  "            preview = text[:100] + '...' if len(text) > 100 else text\n" ++
  "            try:\n" ++
  "                size = _gantry_sys.getsizeof(value)\n" ++
  "            except Exception:\n" ++
  "                size = 0\n" ++
  "            result.append(\x7b'name': name, 'type': type(value).__name__,\n" ++
  "                           'shape': shape, 'preview': preview, 'size': size\x7d)\n" ++
  "        except Exception:\n" ++
  "            pass\n" ++
  "    return result\n" ++
  "\n" ++
  "print(_gantry_json.dumps(_gantry_var_info()))\n" ++
  "del _gantry_var_info\n"

def script : Inspector → String
  | .python => pythonScript

def isExcluded (i : Inspector) (name : String) : Bool :=
  match i with
  | .python => name.toList.head? = some '_' || pythonInternals.contains name

/-- The items of a line that is a JSON array of values. -/
def arrayLine? (line : Text) : Option (List Json) := do
  match ← Json.read? line.trim with
  | .array items => some items
  | _ => none

/-- The items of the last line that is a JSON array. -/
def lastArray? (stdout : Text) : Option (List Json) :=
  (Text.scriptLines stdout).reverse.findSome? arrayLine?

/-- The variables that the script's output lists. -/
def parse (i : Inspector) (stdout : String) : List Variable :=
  match lastArray? stdout.toList with
  | none => []
  | some items =>
    (items.filterMap fun item => Variable.ofSource? (Source.ofValue item)).filter
      fun v => !i.isExcluded v.name

end Inspector
end NotebookKernels
