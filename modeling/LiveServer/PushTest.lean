import LiveServer.Concurrent.Prog
import LiveServer.Model
import LiveServer.Text.Numeral
import LiveServer.Text.Search

/-! `push-test`, which pushes a test picture or a file to the server with ffmpeg.

The tool is a program over what it asks of its host: to print, to look a binary up and to
run it. How Go prints durations is left open (`Durations`), and an interrupt is part of
how a command ends. -/
namespace LiveServer.PushTest
open Concurrent Text

/-- The flags, with the defaults of `parseFlags`. -/
structure Config where
  pushURL : Str := []
  rtmpBase : Str := lit "rtmp://127.0.0.1:1935/live"
  streamKey : Str := []
  token : Str := []
  size : Str := lit "1280x720"
  fps : Int := 30
  videoBitrate : Str := lit "2000k"
  audioBitrate : Str := lit "128k"
  audioFreq : Int := 1000
  gop : Int := 60
  duration : Time := 0
  fileDuration : Time := 30 * 1000000000
  ffmpeg : Str := lit "ffmpeg"
  makeMP4 : Str := []
  file : Str := []
  noAudio : Bool := false
  noTimer : Bool := false
  preset : Str := lit "veryfast"
  extraLabel : Str := lit "SRS PUSH TEST"
  printCommand : Bool := false

/-- What the tool asks of its host. -/
inductive Call where
  | printf (text : Str)
  | lookPath (file : Str)
  | cmdRun (name : Str) (args : List Str)

/-- The answers: an error is `none` when it is nil; a command that has run also tells
whether the tool was interrupted. -/
@[reducible] def Call.Res : Call → Type
  | .printf _ => Unit
  | .lookPath _ => Option GoError
  | .cmdRun .. => Option GoError × Bool

abbrev Tool (α : Type) := Prog Call Call.Res α

/-- Texts of durations. -/
structure Durations where
  /-- `%.3f` of `Seconds()`. -/
  formatDuration : Time → Str
  /-- `Duration.String`. -/
  string : Time → Str

/-! ### Where to push -/

def resolvePushURL (cfg : Config) : Option Str :=
  if cfg.pushURL ≠ [] then some cfg.pushURL
  else if cfg.streamKey = [] ∨ cfg.token = [] then none
  else some (trimRight 47 cfg.rtmpBase ++ lit "/" ++ cfg.streamKey ++ lit "?token=" ++ cfg.token)

/-- The URL as it is printed: what stands behind the first `token=`, up to a `&` or `#`, is
replaced. -/
def redactURL (raw : Str) : Str :=
  match index raw (lit "token=") with
  | none => raw
  | some idx =>
    match indexAny (raw.drop idx) (lit "&#") with
    | none => raw.take (idx + 6) ++ lit "***"
    | some stop => raw.take (idx + 6) ++ lit "***" ++ raw.drop (idx + stop)

/-! ### The arguments of ffmpeg -/

def bitrateBufSize (v : Str) : Str :=
  if (lit "k").isSuffixOf v || (lit "K").isSuffixOf v then
    match sscanfInt (trimSuffix (trimSuffix v (lit "k")) (lit "K")) with
    | some kbps => if kbps > 0 then formatInt (wrapInt64 (kbps * 2)) ++ lit "k" else v
    | none => v
  else v

def escapeDrawtext (s : Str) : Str :=
  replaceAll (replaceAll (replaceAll s 92 (lit "\\\\")) 39 (lit "\\'")) 58 (lit "\\:")

def videoFilter (cfg : Config) : Str :=
  let base := lit "format=yuv420p"
  if cfg.noTimer then lit "[0:v]" ++ base ++ lit "[v]"
  else
    let text := escapeDrawtext cfg.extraLabel ++ lit " %\x7bpts\\:hms\x7d"
    let draw := lit "drawtext=text='" ++ text ++
      lit "':x=40:y=40:fontcolor=white:fontsize=44:box=1:boxcolor=black@0.60:boxborderw=12"
    lit "[0:v]" ++ base ++ lit "," ++ draw ++ lit "[v]"

def syntheticInputs (cfg : Config) (realtime : Bool) : List Str :=
  (if realtime then [lit "-re"] else []) ++
  [lit "-f", lit "lavfi", lit "-i", lit "testsrc2=size=" ++ cfg.size ++ lit ":rate=" ++ formatInt cfg.fps] ++
  (if !cfg.noAudio then
    [lit "-f", lit "lavfi", lit "-i",
      lit "sine=frequency=" ++ formatInt cfg.audioFreq ++ lit ":sample_rate=44100"]
  else [])

/-- The video options, which are the same for both kinds of input. -/
def videoEncodingArgs (cfg : Config) : List Str :=
  [lit "-c:v", lit "libx264", lit "-preset", cfg.preset, lit "-tune", lit "zerolatency",
    lit "-pix_fmt", lit "yuv420p", lit "-b:v", cfg.videoBitrate, lit "-maxrate", cfg.videoBitrate,
    lit "-bufsize", bitrateBufSize cfg.videoBitrate, lit "-g", formatInt cfg.gop,
    lit "-keyint_min", formatInt cfg.gop]

/-- The audio options, likewise. -/
def audioEncodingArgs (cfg : Config) : List Str :=
  if !cfg.noAudio then [lit "-c:a", lit "aac", lit "-b:a", cfg.audioBitrate, lit "-ar", lit "44100"]
  else [lit "-an"]

def syntheticEncodingArgs (cfg : Config) (live : Bool) : List Str :=
  let filter := videoFilter cfg
  (if filter ≠ [] then [lit "-filter_complex", filter, lit "-map", lit "[v]"]
  else [lit "-map", lit "0:v"]) ++
  (if !cfg.noAudio then [lit "-map", lit "1:a"] else []) ++
  videoEncodingArgs cfg ++ audioEncodingArgs cfg ++
  (if live then [lit "-flvflags", lit "no_duration_filesize"] else [lit "-shortest"])

def fileEncodingArgs (cfg : Config) : List Str := videoEncodingArgs cfg ++ audioEncodingArgs cfg

/-- The bytes for which `shellJoin` quotes. -/
def quotedBytes : Str := lit " \t\n'\"$&;()[]\x7b\x7d<>|*?!"

/-- The arguments that it puts in quotes. -/
def IsQuoted (a : Str) : Prop := a = [] ∨ containsAny a quotedBytes = true

instance (a : Str) : Decidable (IsQuoted a) := inferInstanceAs (Decidable (_ ∨ _))

/-- One argument of `shellJoin`. -/
def quote (a : Str) : Str :=
  if IsQuoted a then lit "'" ++ replaceAll a 39 (lit "'\\''") ++ lit "'" else a

def shellJoin (args : List Str) : Str := join (lit " ") (args.map quote)

/-! ### The run -/

section
variable (d : Durations)

def buildPushArgs (cfg : Config) (pushURL : Str) : List Str :=
  let stop := if cfg.duration > 0 then [lit "-t", d.formatDuration cfg.duration] else []
  [lit "-hide_banner"] ++
  (if cfg.file ≠ [] then
    [lit "-stream_loop", lit "-1", lit "-re", lit "-i", cfg.file] ++ stop ++ fileEncodingArgs cfg
  else syntheticInputs cfg true ++ stop ++ syntheticEncodingArgs cfg true) ++
  [lit "-f", lit "flv", pushURL]

def printf (text : Str) : Tool Unit := .op (Call.printf text)

def runFFmpeg (ffmpeg : Str) (args : List Str) (printCommand : Bool) : Tool (Option GoError) := do
  match ← (Prog.op (Call.lookPath ffmpeg) : Tool (Option GoError)) with
  | some err => return some (.wrap "ffmpeg not found" err)
  | none =>
    if printCommand then printf (ffmpeg ++ lit " " ++ shellJoin args ++ lit "\n")
    match ← (Prog.op (Call.cmdRun ffmpeg args) : Tool (Option GoError × Bool)) with
    | (none, _) => return none
    | (some _, true) => return none
    | (some err, false) => return some (.wrap "ffmpeg failed" err)

def generateMP4 (cfg : Config) : Tool (Option GoError) := do
  if cfg.fileDuration ≤ 0 then return some (.text "-file-duration must be greater than 0")
  let args := [lit "-hide_banner", lit "-y"] ++ syntheticInputs cfg false ++
    [lit "-t", d.formatDuration cfg.fileDuration] ++ syntheticEncodingArgs cfg false ++
    [lit "-movflags", lit "+faststart", cfg.makeMP4]
  printf (lit "generating " ++ cfg.makeMP4 ++ lit " (" ++ d.string cfg.fileDuration ++ lit ")\n")
  runFFmpeg cfg.ffmpeg args cfg.printCommand

/-- What `run` does from `resolvePushURL` on. -/
def push (cfg : Config) : Tool (Option GoError) := do
  match resolvePushURL cfg with
  | none =>
    if cfg.makeMP4 ≠ [] then
      printf (lit "generated test file: " ++ cfg.makeMP4 ++ lit "\n")
      return none
    return some (.text "provide -push-url, or provide both -stream-key and -token")
  | some pushURL =>
    let args := buildPushArgs d cfg pushURL
    printf (lit "pushing to " ++ redactURL pushURL ++ lit "\n")
    printf (lit "press Ctrl+C to stop\n")
    runFFmpeg cfg.ffmpeg args cfg.printCommand

/-- What `run` does once the flags are checked. -/
def generateAndPush (cfg : Config) : Tool (Option GoError) := do
  if cfg.makeMP4 ≠ [] then
    match ← generateMP4 d cfg with
    | some err => return some err
    | none => push d { cfg with file := cfg.makeMP4 }
  else push d cfg

def run (cfg : Config) : Tool (Option GoError) := do
  if cfg.fps ≤ 0 then return some (.text "-fps must be greater than 0")
  generateAndPush d (if cfg.gop ≤ 0 then { cfg with gop := wrapInt64 (cfg.fps * 2) } else cfg)

end
end LiveServer.PushTest
