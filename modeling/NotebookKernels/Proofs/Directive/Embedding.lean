import NotebookKernels.Directive.Submission
import NotebookKernels.Proofs.Directive.Scanner

/- Directives that hand text over as data.

   Fifteen directives put what the user wrote into literals: the words of a command, a path, a name
   and a value, a statement to time, a whole body. `embedding?` lists for each of them what its
   literals are to be worth, and which form its code takes. `Fits` compares an expansion with this
   list and with a sample of the same branch; all that `data_stays_data` says follows from it by
   scanning. -/
namespace NotebookKernels
open Python Directive

/-- A directive with the text that it is given. -/
inductive Invocation where
  | line (d : LineDirective) (args : Text)
  | block (d : BlockDirective) (args body : Text)
  deriving DecidableEq, Repr

def Invocation.expand : Invocation → Expansion
  | line d args => d.expand args
  | block d args body => d.expand args body

/-- The forms that the code of a directive can take. -/
inductive Form where
  /-- No code. -/
  | refused
  | usual
  /-- A command with this many words. -/
  | words (n : Nat)
  /-- A variable is set. -/
  | setting
  /-- A variable is shown. -/
  | showing
  /-- All variables are shown. -/
  | listing
  deriving DecidableEq, Repr

/-- A directive and the form of its code. -/
inductive Branch where
  | line (d : LineDirective) (f : Form)
  | block (d : BlockDirective) (f : Form)
  deriving DecidableEq, Repr

/-- The values that the literals of a directive's code are to have. -/
structure Embedding where
  form : Form
  values : List Text
  deriving DecidableEq, Repr

/-- What a line directive embeds as data, and in which form of code; nothing if it embeds none. -/
def LineDirective.embedding? (d : LineDirective) (args : Text) : Option Embedding :=
  match d with
  | pip => some ⟨.words args.words.length, "-m".toList :: "pip".toList :: args.words⟩
  | conda => some ⟨.words args.words.length, "conda".toList :: args.words⟩
  | matplotlib =>
    let backend := orDefault args "inline"
    some ⟨.usual, ["agg".toList, "agg".toList, "matplotlib".toList, backend,
      "Matplotlib backend set to: ".toList, backend]⟩
  | timeit =>
    if args.isEmpty then some ⟨.refused, []⟩
    else some ⟨.usual, [args, "1000 loops: %.6fs total, %.3fms per loop".toList]⟩
  | cd => some ⟨.usual, [orDefault args "~"]⟩
  | ls => some ⟨.usual, [orDefault args "."]⟩
  | env =>
    match Text.cutAt? '=' args with
    | some (before, after) =>
      let name := before.trim
      let value := after.trim
      if name.isEmpty then some ⟨.refused, []⟩
      else some ⟨.setting, [name, value, name ++ '=' :: value]⟩
    | none =>
      if args.isEmpty then some ⟨.listing, ["%s=%s".toList]⟩
      else some ⟨.showing, [args, "Not set".toList]⟩
  | load =>
    if args.isEmpty then some ⟨.refused, []⟩ else some ⟨.usual, [args, "r".toList]⟩
  | run => if args.isEmpty then some ⟨.refused, []⟩ else some ⟨.usual, [args]⟩
  | time | pwd | who | whos | reset | clear | history | store | recallInput | xdel => none

/-- What a block directive embeds as data, and in which form of code; nothing if it embeds none. -/
def BlockDirective.embedding? (d : BlockDirective) (args body : Text) : Option Embedding :=
  match d with
  | writefile =>
    if args.isEmpty then some ⟨.refused, []⟩
    else some ⟨.usual, [body, args, "w".toList, "Writing %d bytes to %s".toList, args]⟩
  | bash => some ⟨.usual, ["bash".toList, "-c".toList, body]⟩
  | html | javascript | latex | markdown => some ⟨.usual, [body]⟩
  | timeit | time | capture => none

/-- An invocation in the branch. -/
def Branch.sample : Branch → Invocation
  | .line .env .refused => .line .env ['=']
  | .line d .refused => .line d []
  | .line d .usual => .line d ['x']
  | .line d (.words n) => .line d (List.replicate n ['x', ' ']).flatten
  | .line d .setting => .line d ['x', '=', 'x']
  | .line d .showing => .line d ['x']
  | .line d .listing => .line d []
  | .block d .refused => .block d [] []
  | .block d _ => .block d ['x'] []

open Snippet (listDisplay readable_quotedItems shape_quotedItems values_code values_quotedItems
  values_append shape_append)

/-! ## Commands -/

/-- A command can be scanned if its list display can. -/
theorem readable_runCommand (last : Option Char) (argv : Snippet) :
    (runCommand argv).readable last = argv.readable (some '(') := by
  simp only [runCommand, code, List.cons_append, Snippet.readable, Snippet.readable_append,
    String.toList_append]
  repeat rw [String.toList_ofList]
  simp [isPlain]

theorem values_runCommand (argv : Snippet) : (runCommand argv).values = argv.values :=
  (values_append argv _).trans (List.append_nil _)

theorem shape_runCommand {argv argv' : Snippet} (h : argv.shape = argv'.shape) :
    (runCommand argv).shape = (runCommand argv').shape := by
  simp only [runCommand, Snippet.shape, List.map_append, List.map_cons, List.cons_append] at *
  rw [h]

theorem readable_listDisplay {front : Snippet} (h : front.readable (some '(') = true)
    (hends : front.ends (some '(') = some ' ') (ws : List Text) :
    (listDisplay front ws).readable (some '(') = true := by
  have hclose : ∀ last, Snippet.readable last [code "]"] = true := by
    intro last
    simp only [code, Snippet.readable]
    decide
  rw [listDisplay, Snippet.readable_append, Snippet.readable_append, h, hends,
    readable_quotedItems (by decide), hclose]
  rfl

theorem values_listDisplay (front : Snippet) (ws : List Text) :
    (listDisplay front ws).values = front.values ++ ws := by
  rw [listDisplay, values_append, values_append, values_quotedItems]
  exact List.append_nil _

theorem shape_listDisplay (front : Snippet) {ws us : List Text} (h : ws.length = us.length) :
    (listDisplay front ws).shape = (listDisplay front us).shape := by
  rw [listDisplay, listDisplay, shape_append, shape_append, shape_append, shape_append,
    shape_quotedItems h]

/-- The code of an expansion can be scanned, has the shape of the sample, and these values. -/
structure Fits (x : Expansion) (sample : Expansion) (values : List Text) : Prop where
  readable : x.code.readable (some '\n') = true
  shape : x.code.shape = sample.code.shape
  values : x.code.values = values

/-- A directive that is refused when nothing is given, and always emits code of one shape else. -/
theorem Fits.of_guarded (sample : Form → Expansion) {args notice : Text} {s : Snippet}
    {values : List Text} {e : Embedding}
    (h : (if args.isEmpty then some ⟨.refused, []⟩ else some ⟨.usual, values⟩) = some e)
    (nothing : (sample .refused).code = []) (readable : s.readable (some '\n') = true)
    (shape : s.shape = (sample .usual).code.shape) (worth : s.values = values) :
    Fits (if args.isEmpty then .refuse notice else .emit s) (sample e.form) e.values := by
  split at h
  · next hargs =>
    obtain rfl := Option.some.inj h
    rw [if_pos hargs]
    exact ⟨rfl, congrArg Snippet.shape nothing.symm, rfl⟩
  · next hargs =>
    obtain rfl := Option.some.inj h
    rw [if_neg hargs]
    exact ⟨readable, shape, worth⟩

namespace LineDirective

variable {d : LineDirective} {args : Text} {e : Embedding}

/-- A sample command has as many words as it asks for. -/
theorem words_sample (n : Nat) :
    Text.words (List.replicate n ['x', ' ']).flatten = List.replicate n ['x'] := by
  induction n with
  | zero => rfl
  | succ n ih =>
    have hword : Text.words ('x' :: ' ' :: (List.replicate n ['x', ' ']).flatten) =
        ['x'] :: Text.words (List.replicate n ['x', ' ']).flatten := rfl
    rw [List.replicate_succ, List.replicate_succ, List.flatten_cons, List.cons_append,
      List.singleton_append, hword, ih]

theorem words_length_sample (args : Text) :
    args.words.length =
      (Text.words (List.replicate args.words.length ['x', ' ']).flatten).length := by
  rw [words_sample, List.length_replicate]

theorem fits_pip (args : Text) :
    Fits (expand .pip args) (Branch.line .pip (.words args.words.length)).sample.expand
      ("-m".toList :: "pip".toList :: args.words) := by
  let front := [code "[sys.executable, ", quoted "-m", code ", ", quoted "pip", code ", "]
  have hexpand : ∀ args, (expand .pip args).code =
      code "import sys\n" :: runCommand (listDisplay front args.words) := by
    intro args
    rfl
  refine ⟨?_, ?_, ?_⟩
  · rw [hexpand, code, Snippet.readable, readable_runCommand, readable_listDisplay]
    · decide
    · decide
    · decide
  · show (expand .pip args).code.shape = (expand .pip _).code.shape
    rw [hexpand, hexpand]
    exact congrArg (_ :: ·) (shape_runCommand (shape_listDisplay front (words_length_sample args)))
  · rw [hexpand, values_code, values_runCommand, values_listDisplay]
    rfl

theorem fits_conda (args : Text) :
    Fits (expand .conda args) (Branch.line .conda (.words args.words.length)).sample.expand
      ("conda".toList :: args.words) := by
  let front := [code "[", quoted "conda", code ", "]
  have hexpand : ∀ args, (expand .conda args).code = runCommand (listDisplay front args.words) := by
    intro args
    rfl
  refine ⟨?_, ?_, ?_⟩
  · rw [hexpand, readable_runCommand]
    apply readable_listDisplay
    · decide
    · decide
  · show (expand .conda args).code.shape = (expand .conda _).code.shape
    rw [hexpand, hexpand]
    exact shape_runCommand (shape_listDisplay front (words_length_sample args))
  · rw [hexpand, values_runCommand, values_listDisplay]
    rfl

theorem fits_timeit (h : embedding? .timeit args = some e) :
    Fits (expand .timeit args) (Branch.line .timeit e.form).sample.expand e.values := by
  rw [expand]
  refine Fits.of_guarded (fun f => (Branch.line .timeit f).sample.expand) h rfl ?_ ?_ ?_
  · simp only [timingReport, code, quoted, String.toList_append, List.cons_append, List.nil_append,
      Snippet.readable]
    repeat rw [String.toList_ofList]
    decide +kernel
  · rfl
  · rfl

theorem fits_env (h : embedding? .env args = some e) :
    Fits (expand .env args) (Branch.line .env e.form).sample.expand e.values := by
  simp only [embedding?] at h
  rw [expand, expandEnv]
  cases hcut : Text.cutAt? '=' args with
  | some parts =>
    obtain ⟨before, after⟩ := parts
    simp only [hcut] at h ⊢
    split at h
    · next hname =>
      obtain rfl := Option.some.inj h
      rw [if_pos hname]
      exact ⟨rfl, rfl, rfl⟩
    · next hname =>
      obtain rfl := Option.some.inj h
      rw [if_neg hname]
      refine ⟨?_, rfl, rfl⟩
      simp only [Expansion.emit, code, Snippet.readable]
      repeat rw [String.toList_ofList]
      decide +kernel
  | none =>
    simp only [hcut] at h ⊢
    split at h
    · next hargs =>
      obtain rfl := Option.some.inj h
      rw [if_pos hargs]
      refine ⟨?_, rfl, rfl⟩
      simp only [Expansion.emit, code, quoted, String.toList_append, Snippet.readable]
      repeat rw [String.toList_ofList]
      decide +kernel
    · next hargs =>
      obtain rfl := Option.some.inj h
      rw [if_neg hargs]
      refine ⟨?_, rfl, rfl⟩
      simp only [Expansion.emit, code, quoted, Snippet.readable]
      repeat rw [String.toList_ofList]
      decide +kernel

theorem fits (h : d.embedding? args = some e) :
    Fits (d.expand args) (Branch.line d e.form).sample.expand e.values := by
  cases d with
  | pip =>
    obtain rfl := Option.some.inj h
    exact fits_pip args
  | conda =>
    obtain rfl := Option.some.inj h
    exact fits_conda args
  | env => exact fits_env h
  | matplotlib | cd | ls =>
    obtain rfl := Option.some.inj h
    refine ⟨?_, rfl, rfl⟩
    simp only [expand, Expansion.emit, code, quoted, Snippet.readable]
    repeat rw [String.toList_ofList]
    decide +kernel
  | timeit => exact fits_timeit h
  | load | run =>
    rw [expand]
    refine Fits.of_guarded (fun f => (Branch.line _ f).sample.expand) h rfl ?_ ?_ ?_
    · simp only [code, quoted, Snippet.readable]
      repeat rw [String.toList_ofList]
      decide +kernel
    · rfl
    · rfl
  | time | pwd | who | whos | reset | clear | history | store | recallInput | xdel => cases h

end LineDirective

namespace BlockDirective

variable {d : BlockDirective} {args body : Text} {e : Embedding}

theorem fits_bash (args body : Text) :
    Fits (expand .bash args body) (Branch.block .bash .usual).sample.expand
      ["bash".toList, "-c".toList, body] := by
  refine ⟨?_, rfl, rfl⟩
  simp only [expand, Expansion.emit]
  rw [readable_runCommand]
  simp only [code, quoted, Snippet.readable]
  repeat rw [String.toList_ofList]
  decide +kernel

theorem fits (h : d.embedding? args body = some e) :
    Fits (d.expand args body) (Branch.block d e.form).sample.expand e.values := by
  cases d with
  | writefile =>
    rw [expand]
    refine Fits.of_guarded (fun f => (Branch.block .writefile f).sample.expand) h rfl ?_ ?_ ?_
    · simp only [code, quoted, Snippet.readable]
      repeat rw [String.toList_ofList]
      decide +kernel
    · rfl
    · rfl
  | bash =>
    obtain rfl := Option.some.inj h
    exact fits_bash args body
  | html | javascript | latex | markdown =>
    obtain rfl := Option.some.inj h
    refine ⟨?_, rfl, rfl⟩
    simp only [expand, display, Expansion.emit, code, String.toList_append, Snippet.readable]
    repeat rw [String.toList_ofList]
    decide +kernel
  | timeit | time | capture => cases h

end BlockDirective

/-! ## Data stays data -/

/-- What an invocation embeds as data, and the branch that it takes. -/
def Invocation.embedding? : Invocation → Option (Branch × List Text)
  | .line d args => (d.embedding? args).map fun e => (.line d e.form, e.values)
  | .block d args body => (d.embedding? args body).map fun e => (.block d e.form, e.values)

theorem Invocation.fits {u : Invocation} {b : Branch} {values : List Text}
    (h : u.embedding? = some (b, values)) : Fits u.expand b.sample.expand values := by
  cases u with
  | line d args =>
    obtain ⟨e, he, heq⟩ := Option.map_eq_some_iff.mp h
    obtain ⟨rfl, rfl⟩ := Prod.mk.inj heq
    exact LineDirective.fits he
  | block d args body =>
    obtain ⟨e, he, heq⟩ := Option.map_eq_some_iff.mp h
    obtain ⟨rfl, rfl⟩ := Prod.mk.inj heq
    exact BlockDirective.fits he

end NotebookKernels
