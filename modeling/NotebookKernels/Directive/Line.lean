import NotebookKernels.Directive.Expansion

/- Line directives: `%name args` on a line of its own.

   `LineDirective` names them, `LineDirective.expand` says what each turns into,
   given the trimmed text after its name. -/
namespace NotebookKernels
open Python Directive

/-- The line directives. -/
inductive LineDirective where
  | pip | conda | matplotlib | timeit | time | pwd | cd | ls | env | who | whos | reset | clear
  | history | load | run | store | recallInput | xdel
  deriving DecidableEq, Repr

namespace LineDirective

/-- The name that follows the percent sign. -/
def name : LineDirective → String
  | pip => "pip" | conda => "conda" | matplotlib => "matplotlib" | timeit => "timeit"
  | time => "time" | pwd => "pwd" | cd => "cd" | ls => "ls" | env => "env" | who => "who"
  | whos => "whos" | reset => "reset" | clear => "clear" | history => "history" | load => "load"
  | run => "run" | store => "store" | recallInput => "recall" | xdel => "xdel"

/-- Every line directive, in the order of their names. -/
def all : List LineDirective :=
  [cd, clear, conda, env, history, load, ls, matplotlib, pip, pwd, recallInput, reset, run, store, time,
    timeit, who, whos, xdel]

def ofName? (n : Text) : Option LineDirective := all.find? (·.name.toList = n)

/-- How often `%timeit` runs its statement. -/
def timeitLoops : Nat := 1000

/-- The listing of the namespace that `%whos` prints. -/
def whosSource : String :=
  "print('%-20s %-15s %s' % ('Variable', 'Type', 'Data/Info'))\n" ++
  "print('-' * 75)\n" ++
  "for _gantry_name, _gantry_value in sorted(globals().items(), key=lambda item: item[0]):\n" ++
  "    if _gantry_name.startswith('_'):\n" ++
  "        continue\n" ++
  "    try:\n" ++
  "        if hasattr(_gantry_value, 'shape'):\n" ++
  "            _gantry_info = str(_gantry_value.shape)\n" ++
  "        elif hasattr(_gantry_value, '__len__'):\n" ++
  "            _gantry_info = 'len=%d' % len(_gantry_value)\n" ++
  "        else:\n" ++
  "            _gantry_info = str(_gantry_value)[:40]\n" ++
  "        print('%-20s %-15s %s' % (_gantry_name, type(_gantry_value).__name__, _gantry_info))\n" ++
  "    except Exception:\n" ++
  "        pass"

/-- `args`, or the default where there are none. -/
def orDefault (args : Text) (default : String) : Text :=
  if args.isEmpty then default.toList else args

/-- The three forms of `%env`: set a variable, show one, show all. -/
def expandEnv (args : Text) : Expansion :=
  match Text.cutAt? '=' args with
  | some (before, after) =>
    let name := before.trim
    let value := after.trim
    if name.isEmpty then .refuse "%env requires a variable name before '='".toList
    else .emit [code "import os\nos.environ[", .quoted name, code "] = ", .quoted value,
      code "\nprint(", .quoted (name ++ '=' :: value), code ")"]
  | none =>
    if args.isEmpty then
      .emit [code ("import os\nfor _gantry_key, _gantry_value in sorted(os.environ.items()):\n" ++
        "    print("), quoted "%s=%s", code " % (_gantry_key, _gantry_value))"]
    else
      .emit [code "import os\nprint(os.environ.get(", .quoted args, code ", ", quoted "Not set",
        code "))"]

/-- A comment that stands for a directive this library does not carry out. -/
def placeholder (d : LineDirective) (args : Text) : Expansion :=
  let head := '%' :: d.name.toList
  let shown := if args.isEmpty then head else head ++ ' ' :: args
  .annotate [.code ("# ".toList ++ shown ++ " - not implemented in this kernel".toList)]
    (head ++ " is not implemented in this kernel".toList)

/-- What a line directive turns into; `args` is the trimmed text after its name. -/
def expand (d : LineDirective) (args : Text) : Expansion :=
  match d with
  | pip =>
    .emit (code "import sys\n" :: runCommand
      ([code "[sys.executable, ", quoted "-m", code ", ", quoted "pip", code ", "] ++
        quotedItems args.words ++ [code "]"]))
  | conda =>
    .emit (runCommand ([code "[", quoted "conda", code ", "] ++ quotedItems args.words ++
      [code "]"]))
  | matplotlib =>
    let backend := .quoted (orDefault args "inline")
    .emit [code "import matplotlib\nmatplotlib.use(", quoted "agg",
      code ")\nimport matplotlib.pyplot as plt\nplt.switch_backend(", quoted "agg",
      code ")\nget_ipython().run_line_magic(", quoted "matplotlib", code ", ", backend,
      code ")\nprint(", quoted "Matplotlib backend set to: ", code " + ", backend, code ")"]
  | timeit =>
    if args.isEmpty then .refuse "%timeit requires a statement".toList
    else .emit ([code "import timeit\n_gantry_elapsed = timeit.timeit(", .quoted args,
      code (", globals=globals(), number=" ++ toString timeitLoops ++ ")\n")] ++
      timingReport timeitLoops)
  | time =>
    if args.isEmpty then .refuse "%time requires a statement".toList
    else .emit [code ("import time as _gantry_time\n" ++
      "_gantry_start = _gantry_time.perf_counter()\n"), .code args, code "\nprint(",
      quoted "Wall time: %.2fms",
      code " % ((_gantry_time.perf_counter() - _gantry_start) * 1000))"]
  | pwd => .emit [code "import os\nprint(os.getcwd())"]
  | cd =>
    .emit [code "import os\nos.chdir(os.path.expanduser(", .quoted (orDefault args "~"),
      code "))\nprint(os.getcwd())"]
  | ls =>
    .emit [code "import os\nfor _gantry_name in sorted(os.listdir(", .quoted (orDefault args "."),
      code ")):\n    print(_gantry_name)"]
  | env => expandEnv args
  | who => .emit [code "print(' '.join(sorted(n for n in dir() if not n.startswith('_'))))"]
  | whos => .emit [code whosSource]
  | reset => .emit [code "get_ipython().reset()\nprint('Namespace reset.')"]
  | clear => .emit [code "from IPython.display import clear_output\nclear_output()"]
  | history =>
    .emit [code ("for _gantry_entry in get_ipython().history_manager.get_range():\n" ++
      "    print('%4s: %s' % (_gantry_entry[1], _gantry_entry[2]))")]
  | load =>
    if args.isEmpty then .refuse "%load requires a filename".toList
    else .emit [code "with open(", .quoted args, code ", ", quoted "r",
      code ") as _gantry_file:\n    print(_gantry_file.read())"]
  | run =>
    if args.isEmpty then .refuse "%run requires a filename".toList
    else .emit [code "with open(", .quoted args,
      code ") as _gantry_file:\n    exec(_gantry_file.read(), globals())"]
  | store => placeholder store args
  | recallInput => placeholder recallInput args
  | xdel =>
    if args.isEmpty then .refuse "%xdel requires a variable name".toList
    else if !isIdentifier args then
      .refuse ("%xdel: '".toList ++ args ++ "' is not a valid variable name".toList)
    else .emit [code "del ", .code args, code "\nprint(", .quoted ("Deleted: ".toList ++ args),
      code ")"]

end LineDirective
end NotebookKernels
