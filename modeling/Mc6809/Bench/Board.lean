/-
  The board of the test bench: what a command does to the bus, and the scripted devices.

  Scripts can make accesses that reach other scripts. `devices depth` lets such accesses
  nest up to a depth; past it every device is silent, answers zero and stores nothing. A
  board that needs more than `maxDepth` does not occur.
-/
import Mc6809.Bench.Command
import Mc6809.Bus
import Mc6809.Memory.Mapping

namespace Mc6809.Bench

/-- A note that a device was used. -/
inductive Activity where
  | read (address : UInt16) (value : UInt8)
  | write (address : UInt16) (value : UInt8)
  | tick
deriving DecidableEq, Repr

def Activity.text : Activity → String
  | read address value => "r" ++ Hex.word address ++ "=" ++ Hex.byte value
  | write address value => "w" ++ Hex.word address ++ "=" ++ Hex.byte value
  | tick => "tick"

/-- A read device and how often it has answered by its count. -/
structure Reader where
  script : ReadScript
  count : UInt8 := 0

/-- The state of the bench that devices can reach: the numbered blocks and regions, the
installed devices, and their activity, oldest first. -/
structure Board where
  blocks : Array BlockId := #[]
  regions : Array BankedRegion := #[]
  readers : Array Reader := #[]
  writers : Array WriteScript := #[]
  routines : Array (List Command) := #[]
  activity : Array Activity := #[]

/-- A view as it is shown: the first block that it can belong to, and the view itself. -/
structure ShownView where
  block : Nat
  view : PageView
deriving DecidableEq, Repr

/-- What a command answers. -/
inductive Reply where
  /-- The command has nothing to say. -/
  | nothing
  /-- The command succeeded. -/
  | ok
  | number (value : Nat)
  | flag (value : Bool)
  | text (text : String)
  | bytes (bytes : List UInt8)
  | fault (fault : Fault)
  | refused (error : MapError)
  | block (length pages : Nat) (text : String)
  | view (view : Option ShownView)
  | views (read write : Option ShownView)
  | route (read write : Route)
  | routes (read write : List Route)
  | lines (lines : InterruptLines)
  | region (region : BankedRegion) (length : Nat)
  | switch (selected : Option Nat) (banks : Nat)
  /-- A number that names nothing. -/
  | badRequest

namespace Reply

def ofByte? : Option UInt8 → Reply
  | some value => number value.toNat
  | none => nothing

end Reply

/-- An action on the bench's bus. -/
abbrev BoardM := BusM Board

/-- Changes the state of the bench. -/
def modifyBoard (f : Board → Board) : BoardM Unit :=
  modify fun bus => { bus with devices := f bus.devices }

/-- Changes the storage. -/
def modifyStore (f : Store → Store) : BoardM Unit :=
  modify fun bus => { bus with store := f bus.store }

/-- Adds a note of activity. -/
def note (activity : Activity) : BoardM Unit :=
  modifyBoard fun board => { board with activity := board.activity.push activity }

/-- Continues with the numbered block, if there is one. -/
def withBlock (number : Nat) (f : BlockId → BoardM Reply) : BoardM Reply := do
  match (← get).devices.blocks[number]? with
  | some block => f block
  | none => return .badRequest

/-- Continues with the numbered region, if there is one. -/
def withRegion (number : Nat) (f : BankedRegion → BoardM Reply) : BoardM Reply := do
  match (← get).devices.regions[number]? with
  | some region => f region
  | none => return .badRequest

/-- Adds a block to the list and answers its number. -/
def listBlock (block : BlockId) : BoardM Reply := do
  let number := (← get).devices.blocks.size
  modifyBoard fun board => { board with blocks := board.blocks.push block }
  return .number number

/-- Makes a block and lists it. -/
def makeBlock (bytes : Array UInt8) : BoardM Reply := do
  let (block, store) := (← get).store.add bytes
  modifyStore fun _ => store
  listBlock block

/-- Edits the page table or says why not; `reply` is the answer to a success. -/
def editPages (f : Store → PageTable → Except MapError PageTable) (reply : Reply) :
    BoardM Reply := do
  let bus ← get
  match f bus.store bus.pages with
  | .ok pages =>
    set { bus with pages }
    return reply
  | .error error => return .refused error

/-- Makes a mapping call. -/
def applyMapping (mapping : Mapping) (reply : Reply) : BoardM Reply :=
  editPages mapping.apply reply

/-- Installs a scripted device for reads. -/
def installReader (script : ReadScript) : BoardM ReadHandler := do
  let id := (← get).devices.readers.size
  modifyBoard fun board => { board with readers := board.readers.push { script } }
  return .device id

/-- Installs a scripted device for writes, or uses a select register. -/
def installWriter : WriteTarget → BoardM WriteHandler
  | .switch switch => return .bankSwitch switch
  | .script script => do
    let id := (← get).devices.writers.size
    modifyBoard fun board => { board with writers := board.writers.push script }
    return .device id

/-- Whether a select register that is named exists. -/
def targetExists (target : WriteTarget) : BoardM Bool :=
  match target with
  | .switch switch => return decide (switch < (← get).switches.size)
  | .script _ => return true

/-- A view with the number of its block. -/
def Board.showView (board : Board) (view : PageView) : ShownView :=
  ⟨(board.blocks.findIdx? (· = view.block)).getD 0, view⟩

/-- The view of a block's page, or the refusal. -/
def withView (number index : Nat) (f : PageView → BoardM Reply) : BoardM Reply :=
  withBlock number fun block => do
    match (← get).store.page block index with
    | .ok view => f view
    | .error error => return .refused error

/-- The view that a set command names. -/
def putView (target : Option (Nat × Nat)) (f : Option PageView → BoardM Reply) : BoardM Reply :=
  match target with
  | none => f none
  | some (number, index) => withView number index fun view => f (some view)

/-- Performs a command. Accesses are made with the given devices. -/
def Command.run (devices : Devices Board) : Command → BoardM Reply
  | newBlock length => makeBlock (Array.replicate length 0)
  | newBlockOf bytes => makeBlock bytes.toArray
  | cloneBlock number => withBlock number listBlock
  | blockInfo number => withBlock number fun block => do
    let store := (← get).store
    return .block (store.length block) (store.pageCount block) (store.text block)
  | getByte number offset => withBlock number fun block => do
    return .ofByte? ((← get).store.get? block offset)
  | setByte number offset value => withBlock number fun block => do
    modifyStore (·.set block offset value)
    return .nothing
  | loadBytes number offset bytes => withBlock number fun block => do
    match (← get).store.load block offset bytes with
    | .ok store =>
      modifyStore fun _ => store
      return .ok
    | .error error => return .refused error
  | blockPage number index => withView number index fun view => do
    return .view (some ((← get).devices.showView view))
  | readPage number index offset => withView number index fun view => do
    return .number ((← get).store.readView view offset).toNat
  | writePage number index offset value => withView number index fun view => do
    modifyStore (·.writeView view offset value)
    return .nothing
  | sameBlock number other => withBlock number fun block => withBlock other fun block' =>
    return .flag (block = block')
  | dump number offset length => withBlock number fun block => do
    let bytes := (← get).store.bytes block
    return .bytes (bytes.toList.drop offset |>.take length)
  | read address => do
    match ← (Bus.read devices address).run with
    | .ok value => return .number value.toNat
    | .error fault => return .fault fault
  | write address value => do
    match ← (Bus.write devices address value).run with
    | .ok () => return .ok
    | .error fault => return .fault fault
  | peek address => return .ofByte? ((← get).peek address)
  | route page => do
    let page := (← get).pages.page page
    return .route page.readRoute page.writeRoute
  | routes => do
    let pages := (← get).pages.toList
    return .routes (pages.map Page.readRoute) (pages.map Page.writeRoute)
  | views page => do
    let bus ← get
    let page := bus.pages.page page
    return .views (page.readView.map bus.devices.showView) (page.writeView.map bus.devices.showView)
  | sameView page other => do
    let pages := (← get).pages
    match (pages.page page).readView, (pages.page other).writeView with
    | some view, some view' => return .flag (view = view')
    | _, _ => return .nothing
  | setReadView page target => putView target fun view =>
    applyMapping (.setReadView page view) .nothing
  | setWriteView page target => putView target fun view =>
    applyMapping (.setWriteView page view) .nothing
  | setReadHandler page script => do
    let handler ← installReader script
    applyMapping (.setReadHandler page handler) .nothing
  | clearReadHandler page => applyMapping (.clearReadHandler page) .nothing
  | setWriteHandler page target => do
    if !(← targetExists target) then return .badRequest
    let handler ← installWriter target
    applyMapping (.setWriteHandler page handler) .nothing
  | clearWriteHandler page => applyMapping (.clearWriteHandler page) .nothing
  | mapBlock first last number index access => withBlock number fun block =>
    applyMapping (.mapBlock first last block index access) .ok
  | mapReadHandler first last script => do
    let handler ← installReader script
    applyMapping (.mapReadHandler first last handler) .ok
  | mapWriteHandler first last target => do
    if !(← targetExists target) then return .badRequest
    let handler ← installWriter target
    applyMapping (.mapWriteHandler first last handler) .ok
  | mapNull first last => applyMapping (.mapNull first last) .ok
  | unmap first last access => applyMapping (.unmap first last access) .ok
  | setLine interrupt asserted => do
    modify (·.setLine interrupt asserted)
    return .nothing
  | lines => return .lines (← get).lines
  | describe => return .text (← get).text
  | newRegion number first last access => withBlock number fun block => do
    let bus ← get
    match BankedRegion.create bus.store block first last access with
    | .ok region =>
      let number := bus.devices.regions.size
      modifyBoard fun board => { board with regions := board.regions.push region }
      return .number number
    | .error error => return .refused error
  | regionInfo number => withRegion number fun region => do
    return .region region ((← get).store.length region.block)
  | mapBank number bank => withRegion number fun region =>
    editPages (fun store table => region.map store table bank) .ok
  | mapNullBank number => withRegion number fun region =>
    editPages (fun _ table => region.mapNull table) .ok
  | newSwitch number mask => withRegion number fun region => do
    let id := (← get).switches.size
    modify fun bus => { bus with switches := bus.switches.push { region, mask } }
    return .number id
  | select switch bank => do
    if (← get).switches.size ≤ switch then return .badRequest
    match ← (Bus.select switch bank).run with
    | .ok () => return .ok
    | .error error => return .refused error
  | switchInfo switch => do
    match (← get).switches[switch]? with
    | some register => return .switch register.selected register.region.bankCount
    | none => return .badRequest

/-- Performs commands for their effects. -/
def runAll (devices : Devices Board) (commands : List Command) : BoardM Unit :=
  commands.forM fun command => do
    let _ ← command.run devices

/-- The byte that a read device answers with; `id` is its own number. -/
def Answer.value (devices : Devices Board) (id : Nat) (address : UInt16) :
    Answer → BoardM UInt8
  | constant value => return value
  | low => return lowByte address
  | high => return highByte address
  | count => do
    match (← get).devices.readers[id]? with
    | some reader =>
      modifyBoard fun board => { board with
        readers := board.readers.setIfInBounds id { reader with count := reader.count + 1 } }
      return reader.count
    | none => return 0
  | block number => do
    let bus ← get
    match bus.devices.blocks[number]? with
    | some target => return (bus.store.get? target address.toNat).getD 0
    | none => return 0
  | read other => do
    match ← (Bus.read devices other).run with
    | .ok value => return value
    | .error _ => return 0xEE

/-- A scripted read: run, answer, and note the answer. -/
def readDevice (devices : Devices Board) (id : Nat) (address : UInt16) : BoardM UInt8 := do
  match (← get).devices.readers[id]? with
  | none => return 0
  | some ⟨.mk body answer, _⟩ =>
    runAll devices body
    let value ← answer.value devices id address
    note (.read address value)
    return value

/-- A scripted write: note, store, and run. -/
def writeDevice (devices : Devices Board) (id : Nat) (address : UInt16) (value : UInt8) :
    BoardM Unit := do
  match (← get).devices.writers[id]? with
  | none => return ()
  | some (.mk body target) =>
    note (.write address value)
    match target.bind ((← get).devices.blocks[·]?) with
    | some block => modifyStore (·.set block address.toNat value)
    | none => pure ()
    runAll devices body

/-- A timer routine: note, and run. -/
def tickDevice (devices : Devices Board) (id : Nat) : BoardM Unit := do
  note .tick
  runAll devices ((← get).devices.routines.getD id [])

/-- The scripted devices, with accesses that nest up to a depth. -/
def devicesTo : Nat → Devices Board
  | 0 =>
    { read := fun _ _ => return 0
      write := fun _ _ _ => return ()
      tick := fun _ => return () }
  | depth + 1 =>
    { read := readDevice (devicesTo depth)
      write := writeDevice (devicesTo depth)
      tick := tickDevice (devicesTo depth) }

/-- How deep accesses of scripts may nest. -/
def maxDepth : Nat := 1000

/-- The scripted devices. -/
def devices : Devices Board := devicesTo maxDepth

end Mc6809.Bench
