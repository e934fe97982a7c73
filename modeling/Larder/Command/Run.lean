import Larder.Command.EnvFile
import Larder.Command.Script
import Larder.Command.Usage
import Larder.Fridge
import Larder.Restock.Supplier

namespace Larder.Command

open Polling (WatchEnd)

/-- One line for an order: id, status, total and time in columns. -/
def recordLine (r : Wire.OrderRecord) : String :=
  Text.padEnd 38 ' ' r.orderId ++ " " ++ Text.padEnd 16 ' ' r.status ++ " " ++
    Text.padStart 10 ' ' r.totalPrice.text ++ " " ++
    (r.createdAt.map Calendar.Timestamp.shortText).getD ""

def notLoggedIn : String :=
  "Not logged in. Run `grocery login <device-id> --password <password>` first."

/-- Start from the session in the cache. -/
def restored : Script Fridge Unit := do
  if ← Script.call Fridge.restore then return () else Script.stop notLoggedIn

/-- The lines for what is reserved. -/
def printItems : List (String × UInt32) → Script Fridge Unit
  | [] => return ()
  | (sku, quantity) :: r => do
    Script.print ("  " ++ sku ++ " x" ++ toString quantity.toNat)
    printItems r

/-- Tell how an order was settled; a failed one ends the script. -/
def tellOutcome (orderId : String) : OrderOutcome → Script Fridge Unit
  | .completed _ total =>
    Script.print ("Order " ++ orderId ++ " completed. Total: " ++ total.text)
  | .cancelled _ => Script.print ("Order " ++ orderId ++ " was cancelled by the service")
  | .failed failedId status => Script.stop (Failure.orderFailed failedId status).userMessage

/-- Confirm the reserved order and follow it. -/
def followOrder (orderId : String) : Script Fridge Unit := do
  Script.call Fridge.confirm
  Script.print ("Order " ++ orderId ++ " confirmed, waiting for robots...")
  match ← Script.call Fridge.waitForCompletion with
  | .settled _ => tellOutcome orderId (← Script.call Fridge.acknowledge)
  | .timedOut attempts =>
    Script.print ("Order " ++ orderId ++ " still in progress after " ++ toString attempts ++
      " checks")
    Script.print "Check on it later with `grocery last`"
  | .cancelled _ =>
    Script.print ("Stopped waiting; order " ++ orderId ++ " continues on the service")

/-- Reserve items, then release them again or follow the order. -/
def orderItems (items : List Wire.OrderLine) (cancel : Bool) : Script Fridge Unit := do
  restored
  Script.call (Fridge.preview items)
  let order ← Script.view Fridge.order
  let orderId := order.orderId?.getD ""
  Script.print ("Reserved order " ++ orderId ++ ":")
  printItems (order.items?.getD .empty).entries
  if cancel then
    let _ ← Script.call Fridge.cancel
    Script.print ("Reservation " ++ orderId ++ " released")
  else followOrder orderId

/-- The lines for a list of orders. -/
def printRecords : List Wire.OrderRecord → Script Fridge Unit
  | [] => return ()
  | r :: rs => do
    Script.print (recordLine r)
    printRecords rs

def noOrders : String := "No orders yet"

def printHistory : Script Fridge Unit := do
  restored
  match ← Script.call Fridge.history with
  | [] => Script.print noOrders
  | records => printRecords records

def printLast : Script Fridge Unit := do
  restored
  match ← Script.call Fridge.lastOrder with
  | some r => Script.print (recordLine r)
  | none => Script.print noOrders

/-- Hand a batch in and follow it. -/
def restockBatch (b : Batch) : Script Supplier Unit := do
  let orderId ← Script.call (Supplier.submit b)
  let estimate := (b.estimatedCost?.map fun cost => ", est. " ++ cost.text).getD ""
  Script.print ("Restock " ++ orderId ++ " accepted (" ++ toString b.manifest.length ++ " lines" ++
    estimate ++ "), robots are offloading...")
  match ← Script.call Supplier.waitForCompletion with
  | .settled (.completed _ total) =>
    Script.print ("Restock " ++ orderId ++ " completed. Total cost: " ++ total.text)
  | .settled (.failed _ status) => Script.stop ("Restock " ++ orderId ++ " failed: " ++ status)
  | .timedOut attempts =>
    Script.print ("Restock " ++ orderId ++ " still in progress after " ++ toString attempts ++
      " checks")
  | .cancelled _ =>
    Script.print ("Stopped waiting; restock " ++ orderId ++ " continues on the service")

/-- Where a task runs: the files there are, the directory it starts in, and the line. -/
structure Site where
  disk : Storage.Disk
  workingDirectory : Storage.Path
  line : Line

/-- The batch in a manifest file, or what is wrong with it. -/
def loadBatch (site : Site) (file : String) : Except String Batch := do
  let text ← (site.disk.read (.ofText site.workingDirectory file)).mapError fun e =>
    "Failed to read manifest " ++ file ++ ": " ++ e.message
  (Batch.decode.ofText text).mapError fun f => "Invalid manifest " ++ file ++ ": " ++ f.message

/-- What came of a task. -/
structure Report where
  printed : List String
  result : Except Halt Unit
  sent : List Request
  disk : Storage.Disk
  /-- The time on the line's clock when it ended. -/
  ended : Nat

/-- Zero for success. -/
def Report.exitCode (r : Report) : Nat :=
  match r.result with
  | .ok () => 0
  | .error _ => 1

/-- The message that a task has ended with. -/
def Report.complaint? (r : Report) : Option String :=
  match r.result with
  | .error (.told m) => some ("Error: " ++ m)
  | _ => none

/-- Run a script for a fridge. -/
def runFridge (settings : Settings) (site : Site) (script : Script Fridge Unit) : Report :=
  let vault := Storage.Vault.ofDirectory
    (.ofText site.workingDirectory settings.cacheDirectory)
  let (result, console) := script ⟨Fridge.new settings vault site.disk site.line, []⟩
  let fridge := console.state
  ⟨console.printed, result, fridge.line.sent, fridge.account.disk, fridge.line.now⟩

/-- Run a script for a supplier. -/
def runSupplier (settings : Settings) (site : Site) (script : Script Supplier Unit) : Report :=
  let (result, console) := script ⟨Supplier.new settings site.line, []⟩
  let line := console.state.line
  ⟨console.printed, result, line.sent, site.disk, line.now⟩

/-- Run a task. -/
def runTask (settings : Settings) (site : Site) : Task → Report
  | .register r => runFridge settings site do
    Script.call (Fridge.register r)
    Script.print ("Registered " ++ r.deviceId ++ ". Log in with `grocery login " ++ r.deviceId ++
      "`.")
  | .login l => runFridge settings site do
    Script.call (Fridge.login l)
    Script.print ("Logged in as " ++ l.deviceId)
  | .logout => runFridge settings site do
    Script.call Fridge.logout
    Script.print "Logged out"
  | .whoami => runFridge settings site do
    restored
    match ← Script.view fun f => f.account.session with
    | some s => Script.print s.deviceId
    | none => return ()
  | .order items cancel => runFridge settings site (orderItems items cancel)
  | .history => runFridge settings site printHistory
  | .last => runFridge settings site printLast
  | .truckRegister truck => runSupplier settings site do
    Script.call (Supplier.register truck)
    Script.print ("Truck " ++ truck.truckId ++ " registered")
  | .restock file =>
    match loadBatch site file with
    | .ok b => runSupplier settings site (restockBatch b)
    | .error m => ⟨[], .error (.told m), [], site.disk, site.line.now⟩

/-- The settings of an invocation: the environment, then a file of variables, then what the
command line says. -/
def settingsOf (known : Variables) (i : Invocation) : Settings :=
  let s := Settings.ofVariables fun name => known.lookup name
  let s := (i.baseUrl.map s.withBaseUrl).getD s
  (i.cacheDirectory.map s.withCacheDirectory).getD s

end Larder.Command
