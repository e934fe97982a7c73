import Larder.Command.Run
import Larder.Network.Message
import Std.Async.DNS
import Std.Async.Signal
import Std.Async.TCP

namespace Larder.Terminal

open Command (Invocation Report Site Variables)
open Storage (Disk Entry Path Route Vault)

def pathText (p : Path) : String := "/" ++ "/".intercalate p

def entryAt (p : Path) : IO (Option Entry) := do
  try
    let bytes ← IO.FS.readBinFile (pathText p)
    return some (.file (Text.Utf8.decode? (bytes.toList.map UInt8.toNat)))
  catch
    | .inappropriateType .. => return some .directory
    | _ => return none

/-- The disk with what stands on the way along a route. -/
def survey (d : Disk) (top : Path) : List String → IO Disk
  | [] => return d
  | name :: names => do
    match Disk.step top name with
    | .error _ => return d
    | .ok p =>
      match ← entryAt p with
      | some .directory => survey (d.set p .directory) p names
      | some (.file text) => return d.set p (.file text)
      | none => return d

/-- Keep a credential's file as it has become. -/
def keep (v : Vault) (before after : Disk) : IO Unit := do
  if before.text? v.route == after.text? v.route then return
  match after.text? v.route with
  | some text =>
    IO.FS.createDirAll (pathText v.route.parent.names)
    IO.FS.writeFile (pathText v.draft.names) text
    IO.FS.rename (pathText v.draft.names) (pathText v.route.names)
  | none => IO.FS.removeFile (pathText v.route.names)

open Std.Async (Async AsyncTask)
open Std.Async.TCP.Socket (Client)

/-- A connection to the first address of a host that accepts one. -/
def connect (port : UInt16) : List Std.Net.IPAddr → Async Client
  | [] => throw (.userError "no address accepts a connection")
  | ip :: ips => do
    let socket ← Client.mk
    let address : Std.Net.SocketAddress := match ip with
      | .v4 addr => .v4 ⟨addr, port⟩
      | .v6 addr => .v6 ⟨addr, port⟩
    try
      socket.connect address
      return socket
    catch e =>
      if ips.isEmpty then throw e else connect port ips

/-- Receive until the answer is there. -/
partial def receive (socket : Client) (bytes : List Nat) : Async Network.Delivery := do
  let part? ← socket.recv? 65536
  let bytes := bytes ++ (part?.map fun part => part.toList.map UInt8.toNat).getD []
  match Network.Delivery.ofBytes? part?.isNone bytes with
  | some d => return d
  | none => receive socket bytes

/-- Send a packet openly, for the site that it names. -/
def talk (stop : Network.Stop) (site : String) (p : Network.Packet) : Async Network.Delivery := do
  let ips ← Std.Async.DNS.getAddrInfo stop.host.bareText (toString stop.port)
  let socket ← connect (.ofNat stop.port) ips.toList
  let bytes := p.bytes site
  socket.send ⟨(bytes.map UInt8.ofNat).toArray⟩
  receive socket []

/-- What stays the same while a task runs. -/
structure Job where
  settings : Settings
  site : Site
  task : Command.Task
  surroundings : Network.Surroundings
  vault : Vault
  /-- When the task was started. -/
  start : Nat
  isInterrupted : IO Bool

def Job.elapsed (job : Job) : IO Nat := return (← IO.monoMsNow) - job.start

/-- How long to sleep at most before looking around again. -/
def slice : Nat := 20

/-- Sleep until an instant of the task or until it is interrupted; says whether it was. -/
partial def Job.sleepUntil (job : Job) (t : Nat) : IO Bool := do
  if ← job.isInterrupted then return true
  let now ← job.elapsed
  if t ≤ now then return false
  IO.sleep (.ofNat (min slice (t - now)))
  job.sleepUntil t

/-- Wait for a delivery up to an instant of the task. -/
partial def Job.await (job : Job) (t : Nat) (delivery : AsyncTask Network.Delivery) :
    IO Network.Delivery := do
  if ← IO.hasFinished delivery.run then
    match delivery.run.get with
    | .ok d => return d
    | .error _ => return .closed
  if t ≤ (← job.elapsed) then return .silent
  IO.sleep 1
  job.await t delivery

/-- Send a request out and wait for its delivery. Nothing is encrypted here: a connection that would
have to be is closed. -/
def Job.deliver (job : Job) (r : Request) : IO Network.Delivery := do
  let url := job.settings.baseUrl
  let address? := job.surroundings.address? url r
  match address?, address?.bind job.surroundings.next?,
      Network.packet? job.surroundings url r with
  | some a, some stop, some p =>
    if a.scheme == .secure || stop.scheme == .secure then return .closed
    else job.await ((← job.elapsed) + job.settings.timeout) (← (talk stop a.site p).toIO)
  | _, _, _ => return .closed

/-- How far a task has come. Where it comes to a request without a reply, the request goes out and
the task is run anew with its reply added. -/
structure Progress where
  replies : List Reply := []
  cancelAt : Option Nat := none
  /-- How many lines have been printed. -/
  shown : Nat := 0
  disk : Disk

def Job.report (job : Job) (p : Progress) : Report :=
  let line : Line :=
    { outlet := Network.outlet job.surroundings job.settings.baseUrl none
      replies := p.replies
      cancelAt := p.cancelAt }
  Command.runTask job.settings { job.site with line } job.task

partial def Job.run (job : Job) (p : Progress) : IO UInt32 := do
  let report := job.report p
  for line in report.printed.drop p.shown do IO.println line
  keep job.vault p.disk report.disk
  let p := { p with shown := report.printed.length, disk := report.disk }
  match report.result, report.sent.getLast? with
  | .error .dropped, some r =>
    if p.cancelAt.isNone && (← job.sleepUntil report.ended) then
      job.run { p with cancelAt := some (← job.elapsed) }
    else
      let d ← job.deliver r
      let reply : Reply :=
        { response := d.response job.settings r.method
          delay := (← job.elapsed) - report.ended }
      job.run { p with replies := p.replies ++ [reply] }
  | _, _ =>
    for complaint in report.complaint? do IO.eprintln complaint
    return .ofNat report.exitCode

/-- Whether the interrupt key has been pressed since. -/
def watchInterrupt : IO (IO Bool) := do
  let waiter ← Std.Async.Signal.Waiter.mk .sigint true
  let pressed ← waiter.wait
  return IO.hasFinished pressed.run

/-- The file of variables in a directory or in one above it. -/
def findEnvFile : List String → IO (Option String)
  | [] => envFileAt []
  | name :: above => do
    match ← envFileAt (name :: above).reverse with
    | some text => return some text
    | none => findEnvFile above
where
  envFileAt (directory : Path) : IO (Option String) := do
    match ← entryAt (directory ++ [".env"]) with
    | some (.file text) => return text
    | _ => return none

/-- The words of a text that can name variables. -/
def words (text : String) : List String :=
  let isPart := fun c => Command.EnvFile.isKeyPart c || Text.isAlphanumeric c
  (text.toList.splitOnP (!isPart ·)).map String.ofList

/-- The variables that are looked at, in the environment and in a file of variables. -/
def readVariables (workingDirectory : Path) : IO Variables := do
  let file? ← findEnvFile workingDirectory.reverse
  let names := Settings.variableNames ++ Network.Relays.variableNames ++
    Command.styleVariableNames ++ (file?.map words).getD []
  let set ← names.filterMapM fun name => return (← IO.getEnv name).map (name, ·)
  return (file?.map (Variables.withFile set)).getD set

/-- What stands on the disk where a task looks. -/
def readDisk (v : Vault) (workingDirectory : Path) (task : Command.Task) : IO Disk := do
  let d ← survey .empty [] v.route.names
  match task with
  | .restock manifest => survey d [] (Route.ofText workingDirectory manifest).names
  | _ => return d

def perform (workingDirectory : Path) (known : Variables) (i : Invocation) : IO UInt32 := do
  let start ← IO.monoMsNow
  let settings := Command.settingsOf known i
  let surroundings : Network.Surroundings := { relays := .ofVariables (known.lookup ·) }
  let vault := Vault.ofDirectory (.ofText workingDirectory settings.cacheDirectory)
  let disk ← readDisk vault workingDirectory i.task
  let site : Site := { disk, workingDirectory, line := {} }
  let job : Job :=
    { settings, site, surroundings, vault, start, task := i.task
      isInterrupted := ← watchInterrupt }
  try
    job.run { disk }
  catch e =>
    IO.eprintln ("Error: " ++ toString e)
    return 1

end Larder.Terminal

open Larder in
def main (arguments : List String) : IO UInt32 := do
  let workingDirectory := Storage.namesOf (← IO.currentDir).toString
  let known ← Terminal.readVariables workingDirectory
  match Command.readArguments arguments with
  | .error complaint =>
    IO.eprint (complaint.shown (known.lookup ·))
    return 2
  | .ok .version =>
    IO.println (Command.programName ++ " " ++ Command.programVersion)
    return 0
  | .ok .help =>
    IO.println Command.about
    return 0
  | .ok (.run i) => Terminal.perform workingDirectory known i
