import NotebookKernels.Wire.Frame
import NotebookKernels.Text.Lines

/- A worker program that plays scripts.

   The program answers each request with the script that the request names: the
   one that its code names last, or the one named like its type. A script is a
   list of lines, each a frame to send or a pause, with a few more commands. A
   request without a script gets the shortest proper answer. -/
namespace NotebookKernels
open Text (Bytes)

/-- One line of a script. -/
inductive PlayStep where
  /-- A frame is sent. -/
  | send (channel type parent content : Text)
  /-- The program pauses for this many hundredths of a second. -/
  | sleep (count : Nat)
  /-- The program ends. -/
  | exit
  /-- The program reads no further requests. -/
  | deaf
  /-- Bytes are sent as they are. -/
  | raw (bytes : Bytes)
  /-- The content of the request is sent back, as a reply or as output. -/
  | echo (reply : Bool)
  /-- The value of a variable of the environment is sent as output. -/
  | setting (name : Text)
  /-- The arguments of the program are sent as output. -/
  | arguments
  deriving DecidableEq

/-- What the program was started with. -/
structure PlayerSetup where
  /-- The text of the script with a name. -/
  script : Text → Option Text
  arguments : Text
  /-- The value of a variable of the environment, empty if it is not set. -/
  setting : Text → Text

/-- The program while it runs. -/
structure Player where
  /-- The requests that have not been read. -/
  queue : List WireRequest := []
  /-- Will no further requests come? -/
  ended : Bool := false
  /-- Does the program read no further requests? -/
  deaf : Bool := false
  /-- Was the program interrupted outside a pause? -/
  interrupted : Bool := false
  /-- In a pause: the request, and what is left of its script. -/
  pause : Option (WireRequest × List PlayStep) := none

/-- Why the program does not go on. -/
inductive Halt where
  /-- It has come to the end of a script. -/
  | done
  /-- It waits for a request. -/
  | waiting
  /-- It pauses, for this many milliseconds. -/
  | sleeping (duration : Nat)
  | exited
  deriving DecidableEq

/-- What the program does before it halts. -/
structure Burst where
  output : Bytes
  player : Player
  halt : Halt

namespace PlayStep

/-- The blanks between the words of a line. -/
def isGap (c : Char) : Bool := c = ' ' || c = '\t'

/-- The first word, and the text from the second one on. -/
def cutWord (t : Text) : Text × Text :=
  let t := t.dropWhile isGap
  (t.takeWhile (fun c => !isGap c), (t.dropWhile fun c => !isGap c).dropWhile isGap)

/-- The value of octal digits. -/
def octal (ds : Text) : Nat := ds.foldl (fun n d => 8 * n + (d.toNat - '0'.toNat)) 0

def isOctal (c : Char) : Bool := '0' ≤ c && c ≤ '7'

/-- The bytes that a text with escapes stands for: a backslash and up to three octal digits are one
byte. -/
def unescape : Text → Bytes
  | [] => []
  | ['\\'] => [92]
  | '\\' :: a :: rest =>
    if isOctal a then match rest with
      | b :: c :: r =>
        if isOctal b then
          if isOctal c then UInt8.ofNat (octal [a, b, c]) :: unescape r
          else UInt8.ofNat (octal [a, b]) :: unescape (c :: r)
        else UInt8.ofNat (octal [a]) :: unescape (b :: c :: r)
      | [b] =>
        if isOctal b then [UInt8.ofNat (octal [a, b])] else UInt8.ofNat (octal [a]) :: unescape [b]
      | [] => [UInt8.ofNat (octal [a])]
    else
      let one : Bytes := match a with
        | 'n' => [10]
        | 't' => [9]
        | 'r' => [13]
        | '\\' => [92]
        | a => 92 :: Text.Utf8.encodeChar a
      one ++ unescape rest
  | c :: r => Text.Utf8.encodeChar c ++ unescape r

def ofLine (line : Text) : PlayStep :=
  let (channel, rest) := cutWord line
  let (type, rest) := cutWord rest
  let (parent, rest) := cutWord rest
  let content := (rest.reverse.dropWhile isGap).reverse
  match String.ofList channel with
  | "sleep" => .sleep ((Decimal.value? type).getD 0)
  | "exit" => .exit
  | "deaf" => .deaf
  | "raw" => .raw (unescape type)
  | "echo" => .echo (type = "shell".toList)
  | "env" => .setting type
  | "args" => .arguments
  | _ => .send channel type parent content

/-- The steps of a script: its lines that are ended. -/
def ofScript (t : Text) : List PlayStep := (Text.lines t).dropLast.map ofLine

end PlayStep

namespace Player

def quoted (t : Text) : Text := '"' :: (t ++ ['"'])

/-- The frame with these parts, which are put in as they are. -/
def frame (r : WireRequest) (channel type parent content : Text) : Bytes :=
  let parent := match String.ofList parent with
    | "self" => quoted r.id.text.toList
    | "none" => "null".toList
    | _ => quoted parent
  let body := Text.Utf8.encode ("\x7b\"channel\":".toList ++ quoted channel ++
    ",\"msg_id\":\"w\",\"msg_type\":".toList ++ quoted type ++ ",\"parent_id\":".toList ++ parent ++
    ",\"content\":".toList ++ content ++ "\x7d".toList)
  (Frame.header body.length).take 3 ++ [0] ++ body

/-- The frame of a text on the standard output, which is put in as it is. -/
def outputFrame (r : WireRequest) (t : Text) : Bytes :=
  frame r "iopub".toList "stream".toList "self".toList
    ("\x7b\"name\":\"stdout\",\"text\":".toList ++ quoted t ++ "\x7d".toList)

def stateFrame (r : WireRequest) (state : String) : Bytes :=
  frame r "iopub".toList "status".toList "self".toList
    (Json.object [("execution_state", .string state)]).print

/-- What the program sends when a pause is interrupted. -/
def interruptFrames (r : WireRequest) : Bytes :=
  frame r "iopub".toList "error".toList "self".toList
    (Json.object [("ename", .string "KeyboardInterrupt"), ("evalue", .string ""),
      ("traceback", .array [.string "^C"])]).print ++ stateFrame r "idle"

/-- The frame that sends the content of a request back. -/
def echoFrame (r : WireRequest) (reply : Bool) : Bytes :=
  if reply then frame r "shell".toList "echo".toList "self".toList r.content.print
  else frame r "iopub".toList "display_data".toList "self".toList
    ("\x7b\"data\":\x7b\"request\":".toList ++ r.content.print ++ "\x7d\x7d".toList)

def sending (bytes : Bytes) (b : Burst) : Burst := { b with output := bytes ++ b.output }

/-- Plays a script up to its next pause or its end. -/
def play (setup : PlayerSetup) (r : WireRequest) (p : Player) : List PlayStep → Burst
  | [] => ⟨[], p, .done⟩
  | .send channel type parent content :: rest =>
    sending (frame r channel type parent content) (play setup r p rest)
  | .sleep n :: rest =>
    if p.interrupted then ⟨interruptFrames r, { p with interrupted := false }, .done⟩
    else if n = 0 then play setup r p rest
    else ⟨[], { p with pause := some (r, rest) }, .sleeping (10 * n)⟩
  | .exit :: _ => ⟨[], p, .exited⟩
  | .deaf :: rest => play setup r { p with deaf := true } rest
  | .raw bytes :: rest => sending bytes (play setup r p rest)
  | .echo reply :: rest => sending (echoFrame r reply) (play setup r p rest)
  | .setting name :: rest => sending (outputFrame r (setup.setting name)) (play setup r p rest)
  | .arguments :: rest => sending (outputFrame r setup.arguments) (play setup r p rest)

/-- The letters and digits after the last `#script:`. -/
def lastScriptName? : Text → Option Text
  | [] => none
  | c :: r => lastScriptName? r <|>
      (Text.stripPrefix? "#script:".toList (c :: r)).map fun t => t.takeWhile Char.isAlphanum

def scriptName (r : WireRequest) : Text :=
  if r.type = "execute_request" then
    let body := r.json.print
    if Text.contains "_gantry_var_info".toList body then "vars".toList
    else (lastScriptName? body).getD "default".toList
  else r.type.toList

def serveOne (setup : PlayerSetup) (p : Player) (r : WireRequest) : Burst :=
  if r.type = "shutdown_request" then ⟨[], p, .exited⟩
  else match setup.script (scriptName r) with
    | some t => play setup r p (PlayStep.ofScript t)
    | none =>
      if r.type = "execute_request" then ⟨stateFrame r "busy" ++ stateFrame r "idle", p, .done⟩
      else
        ⟨frame r "shell".toList "reply".toList "self".toList
          (Json.object [("status", .string "ok")]).print, p, .done⟩

/-- What the program does with the requests that it has. -/
def serve (setup : PlayerSetup) (p : Player) : List WireRequest → Burst
  | [] => ⟨[], { p with queue := [] }, if p.deaf || p.ended then .exited else .waiting⟩
  | r :: rest =>
    if p.deaf then ⟨[], { p with queue := [] }, .exited⟩
    else
      let b := serveOne setup p r
      if b.halt = .done then sending b.output (serve setup b.player rest)
      else { b with player := { b.player with queue := rest } }

/-- What the program does after a script, whose part is given. -/
def goOn (setup : PlayerSetup) (b : Burst) : Burst :=
  if b.halt = .done then sending b.output (serve setup b.player b.player.queue) else b

/-- The program goes on, unless it pauses. -/
def run (setup : PlayerSetup) (p : Player) : Burst :=
  match p.pause with
  | some _ => ⟨[], p, .done⟩
  | none => serve setup p p.queue

/-- A pause is over. -/
def wake (setup : PlayerSetup) (p : Player) : Burst :=
  match p.pause with
  | some (r, rest) => goOn setup (play setup r { p with pause := none } rest)
  | none => ⟨[], p, .done⟩

def interrupt (setup : PlayerSetup) (p : Player) : Burst :=
  match p.pause with
  | some (r, _) => goOn setup ⟨interruptFrames r, { p with pause := none }, .done⟩
  | none => ⟨[], { p with interrupted := true }, .waiting⟩

end Player
end NotebookKernels
