/-
  Views stay within their blocks. An access through a view computes the place of a byte in the
  block and does not ask whether the block has it. That is safe as long as every view that can turn
  up is a page of its block, and it is, because nobody can make a view but by asking a block for one
  of its pages, and because no block ever changes its length.

  `BusCall` lists what there is to call, for hosts and for handlers alike, and `Bus.Reaches` is what
  calls one after the other come to. Each call adds a block, or maps pages as one mapping call would
  and keeps the lengths (`BusCall.apply_cases`), so a bus that calls have built from nothing is
  assembled as in `SharedViews`, and all its views are pages of their blocks.

  To say that no place is ever out of bounds, the accesses are done once more with a check of each
  place (`Store.readView?`, `Bus.readResult?`, `Traffic.perform?`): they have no result where a
  block lacks the byte. On every bus that is reached they come to the same as the accesses without
  it (`views_within_blocks`). What a device does when it is called is a sequence of calls too
  (`Devices.Public`), so its own accesses find a bus that is reached as well.
-/
import Mc6809.Proofs.Run
import Mc6809.Proofs.Service
import Mc6809.Proofs.SharedViews

namespace Mc6809

/-! ## Views with a check -/

namespace Store

/-- The byte of a view. There is no result if the block does not have it. -/
def readView? (store : Store) (view : PageView) (offset : UInt8) : Option UInt8 :=
  store.get? view.block (view.base + offset.toNat)

/-- Writes a byte through a view. There is no result if the block does not have it. -/
def writeView? (store : Store) (view : PageView) (offset value : UInt8) : Option Store :=
  if view.base + offset.toNat < store.length view.block then
    some (store.writeView view offset value)
  else none

variable {store later : Store} {view : PageView}

theorem has_of_page {block : BlockId} {index : Nat} (h : store.page block index = .ok view) :
    store.Has view := by
  have hblock : view.block = block := by
    unfold page at h
    split at h
    · cases h
      rfl
    · cases h
  rw [← hblock] at h
  exact ⟨index, h⟩

/-- Where no view is used there is none to ask about. -/
theorem has_of_eq_none {used : Option PageView} (h : used = none) :
    ∀ view ∈ used, store.Has view := by
  rw [h]
  exact fun _ hview => nomatch hview

theorem Has.readView?_eq (h : store.Has view) (offset : UInt8) :
    store.readView? view offset = some (store.readView view offset) := by
  obtain ⟨byte, hbyte⟩ := h.get? offset
  unfold readView? readView
  rw [hbyte]
  rfl

theorem Has.writeView?_eq (h : store.Has view) (offset value : UInt8) :
    store.writeView? view offset value = some (store.writeView view offset value) := by
  have hlength := (has_iff.mp h).2
  have hoffset := offset.toNat_lt
  exact if_pos (by omega)

theorem length_setMany (block other : BlockId) (offset : Nat) (values : List UInt8) :
    (store.setMany block offset values).length other = store.length other := by
  induction values generalizing store offset with
  | nil => rfl
  | cons value values ih => rw [setMany, ih, length_set]

end Store

/-! ## Calls -/

/-- What a host or a handler can call for, apart from looking at things. -/
inductive BusCall (σ : Type) where
  | addBlock (bytes : Array UInt8)
  | setByte (block : BlockId) (offset : Nat) (value : UInt8)
  | load (block : BlockId) (offset : Nat) (values : List UInt8)
  /-- Writes a byte through a view. -/
  | writeView (view : PageView) (offset value : UInt8)
  | map (mapping : Mapping)
  | mapBank (region : BankedRegion) (bank : Nat)
  | mapNullBank (region : BankedRegion)
  | addSwitch (register : BankSwitch)
  | select (switch bank : Nat)
  | writeSwitch (switch : Nat) (value : UInt8)
  | setLine (interrupt : Interrupt) (asserted : Bool)
  /-- The devices of the board get another state. -/
  | setDevices (devices : σ)

namespace BusCall

variable {σ : Type}

/-- The view that a call uses, if it uses one. -/
def view? : BusCall σ → Option PageView
  | map mapping => mapping.view?
  | writeView view _ _ => some view
  | _ => none

/-- The bus with other pages, unless they are refused. -/
def edited (bus : Bus σ) (f : PageTable → Except MapError PageTable) : Bus σ :=
  match bus.editPages f with
  | .ok after => after
  | .error _ => bus

/-- The bus after a call. One that is refused leaves it as it is. -/
def apply (bus : Bus σ) : BusCall σ → Bus σ
  | addBlock bytes => { bus with store := (bus.store.add bytes).2 }
  | setByte block offset value => { bus with store := bus.store.set block offset value }
  | load block offset values => match bus.store.load block offset values with
    | .ok store => { bus with store }
    | .error _ => bus
  | writeView view offset value => { bus with store := bus.store.writeView view offset value }
  | map mapping => edited bus (mapping.apply bus.store)
  | mapBank region bank => edited bus (region.map bus.store · bank)
  | mapNullBank region => edited bus region.mapNull
  | addSwitch register => { bus with switches := bus.switches.push register }
  | select switch bank => ((Bus.select switch bank).run.run bus).value.2
  | writeSwitch switch value => ((Bus.writeSwitch switch value).run bus).value.2
  | setLine interrupt asserted => bus.setLine interrupt asserted
  | setDevices devices => { bus with devices }

end BusCall

namespace Bus

variable {σ : Type} {bus mid after : Bus σ}

/-- A mapping call with views that blocks have handed out has made the pages what they are, or they
are what they were, and blocks keep their lengths. -/
structure Remaps (bus after : Bus σ) : Prop where
  pages : after.pages = bus.pages ∨ ∃ mapping : Mapping,
    (∀ view ∈ mapping.view?, bus.store.Has view) ∧
      mapping.apply bus.store bus.pages = .ok after.pages
  length : ∀ block, after.store.length block = bus.store.length block

namespace Remaps

theorem refl (bus : Bus σ) : Remaps bus bus := ⟨.inl rfl, fun _ => rfl⟩

/-- A page table that a mapping call gives, if it gives one. -/
theorem edited {f : PageTable → Except MapError PageTable} (mapping : Mapping)
    (hviews : ∀ view ∈ mapping.view?, bus.store.Has view)
    (hf : ∀ pages, f bus.pages = .ok pages → mapping.apply bus.store bus.pages = .ok pages) :
    Remaps bus (BusCall.edited bus f) := by
  unfold BusCall.edited editPages
  cases hpages : f bus.pages with
  | error _ => exact refl bus
  | ok pages => exact ⟨.inr ⟨mapping, hviews, hf pages hpages⟩, fun _ => rfl⟩

theorem of_pages (hpages : after.pages = bus.pages)
    (hlength : ∀ block, after.store.length block = bus.store.length block) : Remaps bus after :=
  ⟨.inl hpages, hlength⟩

/-- Only pages of blocks come to be shown. -/
theorem assembled (h : Remaps bus after) (hbus : bus.Assembled) : after.Assembled := by
  obtain hpages | ⟨mapping, hviews, hpages⟩ := h.pages
  · exact .other hbus hpages h.length
  · exact .other (.map mapping hbus hviews hpages) rfl h.length

end Remaps

end Bus

/-! ## Bank selections -/

/-- A region shows a bank by mapping its block. -/
theorem BankedRegion.map_ok {region : BankedRegion} {store : Store} {table pages : PageTable}
    {bank : Nat} (h : region.map store table bank = .ok pages) :
    (Mapping.mapBlock region.first region.last region.block (bank * region.pagesPerBank)
      region.access).apply store table = .ok pages := by
  unfold map at h
  split at h
  · exact h
  · cases h

/-- A register shows a bank or the null page, by one mapping call. -/
theorem BankSwitch.select_ok {register turned : BankSwitch} {store : Store}
    {table pages : PageTable} {bank : Nat}
    (h : register.select store table bank = .ok (turned, pages)) :
    ∃ mapping : Mapping, mapping.view? = none ∧ mapping.apply store table = .ok pages := by
  unfold select at h
  split at h
  · obtain ⟨_, hmap, h⟩ := of_bind_ok h
    cases h
    exact ⟨_, rfl, BankedRegion.map_ok hmap⟩
  · obtain ⟨_, hmap, h⟩ := of_bind_ok h
    cases h
    exact ⟨.mapNull register.region.first register.region.last, rfl, hmap⟩

namespace Bus

variable {σ : Type} {bus after : Bus σ}

theorem remaps_select (switch bank : Nat) (bus : Bus σ) :
    Remaps bus ((select switch bank).run.run bus).value.2 := by
  obtain hbus | ⟨register, turned, pages, hselect, hbus⟩ := select_bus_cases switch bank bus
  · rw [hbus]
    exact .refl bus
  · rw [hbus]
    obtain ⟨mapping, hview, hpages⟩ := BankSwitch.select_ok hselect
    exact ⟨.inr ⟨mapping, Store.has_of_eq_none hview, hpages⟩, fun _ => rfl⟩

theorem remaps_writeSwitch (switch : Nat) (value : UInt8) (bus : Bus σ) :
    Remaps bus ((writeSwitch switch value).run bus).value.2 := by
  obtain hbus | ⟨bank, hbus⟩ := writeSwitch_bus_cases switch value bus
  · rw [hbus]
    exact .refl bus
  · rw [hbus]
    exact remaps_select switch bank bus

end Bus

/-! ## Calls one after the other -/

/-- A call adds a block, or maps pages as one mapping call does and keeps all lengths. -/
theorem BusCall.apply_cases {σ : Type} {bus : Bus σ} (call : BusCall σ)
    (hviews : ∀ view ∈ call.view?, bus.store.Has view) :
    (∃ bytes, call.apply bus = { bus with store := (bus.store.add bytes).2 }) ∨
      bus.Remaps (call.apply bus) := by
  cases call with
  | addBlock bytes => exact .inl ⟨bytes, rfl⟩
  | setByte block offset value =>
    exact .inr (.of_pages rfl fun _ => Store.length_set _ _ _ _ _)
  | load block offset values =>
    refine .inr ?_
    unfold apply Store.load
    dsimp only
    split
    · rename_i store hload
      split at hload
      · cases hload
        exact .of_pages rfl fun _ => Store.length_setMany _ _ _ _
      · cases hload
    · exact .refl bus
  | writeView view offset value =>
    exact .inr (.of_pages rfl fun _ => Store.length_set _ _ _ _ _)
  | map mapping => exact .inr (.edited mapping hviews fun _ h => h)
  | mapBank region bank =>
    exact .inr (.edited (.mapBlock ..) (Store.has_of_eq_none rfl) fun _ h => BankedRegion.map_ok h)
  | mapNullBank region =>
    exact .inr (.edited (.mapNull region.first region.last) (Store.has_of_eq_none rfl)
      fun _ h => h)
  | select switch bank => exact .inr (Bus.remaps_select switch bank bus)
  | writeSwitch switch value => exact .inr (Bus.remaps_writeSwitch switch value bus)
  | addSwitch | setLine | setDevices => exact .inr (.of_pages rfl fun _ => rfl)

namespace Bus

variable {σ : Type} {bus mid after : Bus σ} {view : PageView}

/-- What becomes of a bus by calls one after the other. A view that a call uses is one that its
block hands out. If the block has done so before, it does so still (`Reaches.has`), so views can be
kept and used later. -/
inductive Reaches (bus : Bus σ) : Bus σ → Prop where
  | refl : Reaches bus bus
  | call {mid : Bus σ} (call : BusCall σ) : Reaches bus mid →
      (∀ view ∈ call.view?, mid.store.Has view) → Reaches bus (call.apply mid)

namespace Reaches

theorem trans (h : Reaches bus mid) (h' : Reaches mid after) : Reaches bus after := by
  induction h' with
  | refl => exact h
  | call call _ hviews ih => exact ih.call call hviews

/-- A call that uses no view can be made at any time. -/
theorem step (call : BusCall σ) (h : call.view? = none) : bus.Reaches (call.apply bus) :=
  Reaches.refl.call call (Store.has_of_eq_none h)

theorem steps {calls : List (BusCall σ)} (h : ∀ call ∈ calls, call.view? = none) :
    bus.Reaches (calls.foldl BusCall.apply bus) := by
  induction calls generalizing bus with
  | nil => exact .refl
  | cons call calls ih =>
    obtain ⟨hfirst, hrest⟩ := List.forall_mem_cons.mp h
    exact (step call hfirst).trans (ih hrest)

theorem assembled (h : Reaches bus after) (hbus : bus.Assembled) : after.Assembled := by
  induction h with
  | refl => exact hbus
  | call call _ hviews ih =>
    obtain ⟨bytes, hadd⟩ | hremaps := call.apply_cases hviews
    · rw [hadd]
      exact .addBlock bytes ih
    · exact hremaps.assembled ih

/-- A block that has handed out a view has the page for good. -/
theorem has (h : Reaches bus after) (hview : bus.store.Has view) : after.store.Has view := by
  induction h with
  | refl => exact hview
  | call call _ hviews ih =>
    obtain ⟨bytes, hadd⟩ | hremaps := call.apply_cases hviews
    · rw [hadd]
      exact ih.add bytes
    · exact (Store.has_congr hremaps.length).mpr ih

end Reaches

end Bus

/-- What a device does to the bus when it is called comes to a sequence of calls. The handlers that
the bus itself provides make calls anyway. -/
def Devices.Public {σ : Type} (devices : Devices σ) (call : Call σ) : Prop :=
  match call.callee with
  | .read (.device id) address =>
    call.bus.Reaches ((devices.read id address).run call.bus).value.2
  | .write (.device id) address value =>
    call.bus.Reaches ((devices.write id address value).run call.bus).value.2
  | .routine id => call.bus.Reaches (devices.ticked id call.bus)
  | _ => True

/-! ## Accesses with a check -/

namespace Bus

variable {σ : Type} (devices : Devices σ) (bus : Bus σ)

/-- A read, with a check of the place that it reads through a view. -/
def readResult? (address : UInt16) : Option (Except Fault UInt8 × Bus σ) :=
  match (bus.pages.page (highByte address)).readView with
  | some view => (bus.store.readView? view (lowByte address)).map fun byte => (.ok byte, bus)
  | none => some (bus.readResult devices address)

/-- A write, with a check of the place that it writes through a view. -/
def writeResult? (address : UInt16) (value : UInt8) : Option (Except Fault Unit × Bus σ) :=
  match (bus.pages.page (highByte address)).writeView with
  | some view => (bus.store.writeView? view (lowByte address) value).map fun store =>
    (.ok (), { bus with store })
  | none => some (bus.writeResult devices address value)

/-- A peek, with a check of the place that it looks at. -/
def peek? (address : UInt16) : Option (Option UInt8) :=
  match (bus.pages.page (highByte address)).readView with
  | some view => (bus.store.readView? view (lowByte address)).map some
  | none => some none

variable {devices bus} {address : UInt16} {value : UInt8}

theorem Framed.readResult?_eq (h : bus.Framed) :
    bus.readResult? devices address = some (bus.readResult devices address) := by
  rw [readResult_eq]
  unfold readResult?
  cases hview : (bus.pages.page (highByte address)).readView with
  | some view =>
    dsimp only
    rw [(h.readView _ _ hview).readView?_eq]
    rfl
  | none =>
    rw [readResult_eq, hview]

theorem Framed.writeResult?_eq (h : bus.Framed) :
    bus.writeResult? devices address value = some (bus.writeResult devices address value) := by
  rw [writeResult_eq]
  unfold writeResult?
  cases hview : (bus.pages.page (highByte address)).writeView with
  | some view =>
    dsimp only
    rw [(h.writeView _ _ hview).writeView?_eq]
    rfl
  | none =>
    rw [writeResult_eq, hview]

theorem Framed.peek?_eq (h : bus.Framed) : bus.peek? address = some (bus.peek address) := by
  unfold peek? peek
  cases hview : (bus.pages.page (highByte address)).readView with
  | some view =>
    dsimp only
    rw [(h.readView _ _ hview).readView?_eq]
    rfl
  | none => rfl

theorem reaches_readResult (h : ∀ call ∈ bus.readCalls address, devices.Public call) :
    bus.Reaches (bus.readResult devices address).2 := by
  obtain hbus | ⟨_, hcall, hbus⟩ := bus.readResult_bus_cases
  · rw [hbus]
    exact .refl
  · rw [hbus]
    exact h _ hcall

theorem reaches_writeResult (hbus : bus.Framed)
    (h : ∀ call ∈ bus.writeCalls address value, devices.Public call) :
    bus.Reaches (bus.writeResult devices address value).2 := by
  obtain hafter | ⟨view, hview, hafter⟩ | ⟨switch, hafter⟩ | ⟨_, hcall, hafter⟩ :=
    bus.writeResult_bus_cases
  · rw [hafter]
    exact .refl
  · rw [hafter]
    have hviews : ∀ used ∈ some view, bus.store.Has used := by
      rintro _ ⟨⟩
      exact hbus.writeView _ _ hview
    exact .call (.writeView view (lowByte address) value) .refl hviews
  · rw [hafter]
    exact .step (.writeSwitch switch value) rfl
  · rw [hafter]
    exact h _ hcall

end Bus

namespace Traffic

variable {σ α : Type} {devices : Devices σ}

/-- Performs the requests of a computation on the bus, each with a check. There is no result if one
of them would leave a block. -/
def perform? (devices : Devices σ) : Traffic α → Bus σ → Option (Except Fault α × Bus σ)
  | .done result, bus => some (.ok result, bus)
  | .read address next, bus =>
    match bus.readResult? devices address with
    | some (.ok value, after) => (next value).perform? devices after
    | some (.error fault, after) => some (.error fault, after)
    | none => none
  | .write address value next, bus =>
    match bus.writeResult? devices address value with
    | some (.ok (), after) => next.perform? devices after
    | some (.error fault, after) => some (.error fault, after)
    | none => none
  | .releaseNmi next, bus => next.perform? devices (bus.setLine .nmi false)
  | .report _ next, bus => next.perform? devices bus

/-- On an assembled bus no request leaves a block, so with checks traffic comes to the same as
without. If handlers do to the bus what calls can do, so does all of it. -/
theorem perform?_eq (t : Traffic α) {bus : Bus σ} (hbus : bus.Assembled)
    (h : ∀ call ∈ t.calls devices bus, devices.Public call) :
    t.perform? devices bus = some ((t.perform devices).run.run bus).value ∧
      bus.Reaches ((t.perform devices).run.run bus).value.2 := by
  induction t generalizing bus with
  | done result => exact ⟨rfl, .refl⟩
  | read address next ih =>
    rw [calls, List.forall_mem_append] at h
    obtain ⟨haccess, hrest⟩ := h
    have hreaches := Bus.reaches_readResult haccess
    rw [perform?, hbus.framed.readResult?_eq, perform_read, value_bind, ← Bus.readResult]
    rcases hread : bus.readResult devices address with ⟨fault | value, after⟩
    · rw [hread] at hreaches
      exact ⟨rfl, hreaches⟩
    · rw [hread] at hreaches hrest
      obtain ⟨hnext, hafter⟩ := ih value (hreaches.assembled hbus) hrest
      exact ⟨hnext, hreaches.trans hafter⟩
  | write address value next ih =>
    rw [calls, List.forall_mem_append] at h
    obtain ⟨haccess, hrest⟩ := h
    have hreaches := Bus.reaches_writeResult hbus.framed haccess
    rw [perform?, hbus.framed.writeResult?_eq, perform_write, value_bind, ← Bus.writeResult]
    rcases hwrite : bus.writeResult devices address value with ⟨fault | _, after⟩
    · rw [hwrite] at hreaches
      exact ⟨rfl, hreaches⟩
    · rw [hwrite] at hreaches hrest
      obtain ⟨hnext, hafter⟩ := ih (hreaches.assembled hbus) hrest
      exact ⟨hnext, hreaches.trans hafter⟩
  | releaseNmi next ih =>
    have hreaches : bus.Reaches (bus.setLine .nmi false) := .step (.setLine .nmi false) rfl
    obtain ⟨hnext, hafter⟩ := ih (hreaches.assembled hbus) h
    exact ⟨hnext, hreaches.trans hafter⟩
  | report event next ih => exact ih hbus h

end Traffic

/-- Each routine makes its calls on the bus that the one before it has left. -/
theorem Devices.reaches_routines {σ : Type} {devices : Devices σ} (routines : List Nat)
    {bus : Bus σ} (h : ∀ call ∈ devices.routineCalls routines bus, devices.Public call) :
    bus.Reaches (routines.foldl (fun bus id => devices.ticked id bus) bus) := by
  induction routines generalizing bus with
  | nil => exact .refl
  | cons id rest ih =>
    rw [routineCalls, List.forall_mem_cons] at h
    obtain ⟨hfirst, hrest⟩ := h
    have hticked : bus.Reaches (devices.ticked id bus) := hfirst
    exact hticked.trans (ih hrest)

/-! ## Runs -/

namespace Machine

variable {σ : Type} {devices : Devices σ} {m : Machine σ}

/-- None of the accesses that the next step makes leaves a block: with checks they come to the
same. -/
def StepInBounds (devices : Devices σ) (m : Machine σ) : Prop :=
  let traffic := (Action.step m.bus.lines).start m.cpu
  traffic.perform? devices m.bus = some ((traffic.perform devices).run.run m.bus).value

/-- The step is in bounds, and with the routines that are due it does to the bus what calls can
do. -/
theorem reaches_timedStep (hbus : m.bus.Assembled)
    (h : ∀ call ∈ m.calls devices, devices.Public call) :
    m.StepInBounds devices ∧ m.bus.Reaches (m.timedStep devices).2.bus := by
  rw [calls, List.forall_mem_append] at h
  obtain ⟨haccesses, hroutines⟩ := h
  obtain ⟨hperform, hstep⟩ := Traffic.perform?_eq _ hbus haccesses
  rw [Traffic.perform_eq_course] at hstep
  have hafter : m.bus.Reaches (m.step devices).2.bus := by
    rw [step_bus]
    exact hstep
  refine ⟨hperform, hafter.trans ?_⟩
  rw [timedStep_bus]
  exact Devices.reaches_routines _ hroutines

theorem reaches_after (hbus : m.bus.Assembled) {n : Nat}
    (h : ∀ k < n, ∀ call ∈ (m.after devices k).calls devices, devices.Public call) :
    m.bus.Reaches (m.after devices n).bus := by
  induction n with
  | zero => exact .refl
  | succ n ih =>
    have hbefore := ih fun k hk => h k (by omega)
    exact hbefore.trans
      (reaches_timedStep (hbefore.assembled hbus) (h n (by omega))).2

end Machine

namespace Bus

variable {σ : Type}

/-- On every bus that calls have made out of an empty one, the views of the page table lie within
their blocks, on multiples of 256. So no read, write or peek ever leaves a block, nor does an access
through a view that a block has handed out at any time. If handlers and the timer's routine do to
the bus what calls can do, reads, writes and the steps of a run lead to buses of the same kind, and
no step of the run leaves a block either. -/
theorem views_within_blocks (devices : Devices σ) {initial : σ} {bus : Bus σ}
    (h : Reaches { devices := initial } bus) :
    (∀ number view, (bus.pages.page number).readView = some view ∨
        (bus.pages.page number).writeView = some view →
      256 ∣ view.base ∧ view.base + 256 ≤ bus.store.length view.block) ∧
    (∀ address, bus.peek? address = some (bus.peek address) ∧
      bus.readResult? devices address = some (bus.readResult devices address) ∧
      ((∀ call ∈ bus.readCalls address, devices.Public call) →
        Reaches { devices := initial } (bus.readResult devices address).2)) ∧
    (∀ address value,
      bus.writeResult? devices address value = some (bus.writeResult devices address value) ∧
      ((∀ call ∈ bus.writeCalls address value, devices.Public call) →
        Reaches { devices := initial } (bus.writeResult devices address value).2)) ∧
    (∀ (earlier : Bus σ) block index view,
      earlier.Reaches bus → earlier.store.page block index = .ok view →
      bus.store.Has view ∧ ∀ offset,
        bus.store.readView? view offset = some (bus.store.readView view offset) ∧
        ∀ value, bus.store.writeView? view offset value =
          some (bus.store.writeView view offset value)) ∧
    ∀ (m : Machine σ) (n : Nat), m.bus = bus →
      (∀ k ≤ n, ∀ call ∈ (m.after devices k).calls devices, devices.Public call) →
      (m.after devices n).StepInBounds devices ∧
        Reaches { devices := initial } (m.after devices (n + 1)).bus := by
  have hbus : bus.Assembled := h.assembled (.new initial)
  have hframed := hbus.framed
  refine ⟨fun number view hview => ?_, fun address => ⟨hframed.peek?_eq, hframed.readResult?_eq,
    fun hcalls => h.trans (reaches_readResult hcalls)⟩, fun address value =>
    ⟨hframed.writeResult?_eq, fun hcalls => h.trans (reaches_writeResult hframed hcalls)⟩,
    fun earlier block index view hreaches hpage => ?_, fun m n hm hcalls => ?_⟩
  · obtain hread | hwrite := hview
    · exact Store.has_iff.mp (hframed.readView _ _ hread)
    · exact Store.has_iff.mp (hframed.writeView _ _ hwrite)
  · have hhas : bus.store.Has view := hreaches.has (Store.has_of_page hpage)
    exact ⟨hhas, fun offset =>
      ⟨hhas.readView?_eq offset, fun value => hhas.writeView?_eq offset value⟩⟩
  · subst hm
    have hbefore : m.bus.Reaches (m.after devices n).bus :=
      Machine.reaches_after hbus fun k hk => hcalls k (by omega)
    obtain ⟨haccesses, hstep⟩ :=
      Machine.reaches_timedStep (hbefore.assembled hbus) (hcalls n le_rfl)
    exact ⟨haccesses, h.trans (hbefore.trans hstep)⟩

/-- A board with a device that shows, at page 2, the page of block 0 whose number is written
to it. -/
def pageSelector : Devices Unit where
  read _ _ := return 0
  write _ _ value :=
    modify (BusCall.apply · (.map (.mapBlock 2 2 ⟨0⟩ value.toNat .readWrite)))
  tick _ := return ()

theorem public_pageSelector (call : Call Unit) : pageSelector.Public call := by
  unfold Devices.Public
  split
  · exact .refl
  · exact .step (.map (.mapBlock 2 2 ⟨0⟩ _ .readWrite)) rfl
  · exact .refl
  · trivial

/-- Two whole pages and part of a third, and a block without bytes, which has no page to map. Every
byte is 0xDD, so the first instruction stores D to the direct page, where the device is. -/
def selectorCalls : List (BusCall Unit) := [
  .addBlock (Array.replicate 600 0xDD),
  .addBlock #[],
  .map (.mapBlock 0 0 ⟨0⟩ 0 .read),
  .map (.mapBlock 3 3 ⟨1⟩ 0 .readWrite),
  .map (.setWriteHandler 1 (.device 0))]

def selecting : Machine Unit where
  cpu := { regs := { a := 1, b := 2, dp := 1 } }
  bus := selectorCalls.foldl BusCall.apply { devices := () }

/-- The step writes 1 and then 2 to the device. Page 2 of the block is not a whole one, so the
second write is in vain. -/
theorem views_within_blocks_selecting :
    ((selecting.after pageSelector 1).bus.pages.page 2).readView = some ⟨⟨0⟩, 256⟩ ∧
      256 + 256 ≤ (selecting.after pageSelector 1).bus.store.length ⟨0⟩ ∧
      (selecting.after pageSelector 1).bus.peek? 0x02FF =
        some ((selecting.after pageSelector 1).bus.peek 0x02FF) := by
  have hstart : Reaches { devices := () } selecting.bus := .steps (by decide)
  obtain ⟨-, -, -, -, hrun⟩ := views_within_blocks pageSelector hstart
  have hreaches : Reaches { devices := () } (selecting.after pageSelector 1).bus :=
    (hrun selecting 0 rfl fun _ _ call _ => public_pageSelector call).2
  obtain ⟨hviews, haccesses, -⟩ := views_within_blocks pageSelector hreaches
  have hview : ((selecting.after pageSelector 1).bus.pages.page 2).readView =
      some ⟨⟨0⟩, 256⟩ := by decide +kernel
  exact ⟨hview, (hviews 2 _ (.inl hview)).2, (haccesses 0x02FF).1⟩

end Bus

end Mc6809
