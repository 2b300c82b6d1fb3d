/-
  Page tables by their history. A mapping call covers a range of pages, perhaps of one page only,
  and has something to put into some of their slots (`Mapping.contents`). If it is not refused, it
  does that to each page that it covers, and nothing else (`Mapping.apply_eq`).

  So the slots of a table that calls have built can be read off the list of the calls: each holds
  what the last one that concerned it has put there, and a call that was refused has not concerned
  any (`slot_built`). What accesses come to follows from the slots (`Bus.accesses_by_history`): a
  view answers them, in its absence a handler, and in the absence of both nothing.
-/
import Mathlib.Data.List.Induction
import Mc6809.Memory.Mapping
import Mc6809.Proofs.Calls
import Mc6809.Proofs.Pages

namespace Mc6809

/-! ## Slots -/

/-- The slots of a page. -/
inductive Slot where
  | readView | writeView | readHandler | writeHandler
deriving DecidableEq, Repr

/-- What a slot can hold. -/
abbrev Slot.Content : Slot → Type
  | readView | writeView => PageView
  | readHandler => ReadHandler
  | writeHandler => WriteHandler

/-- What there is to put into the slots of a page: nothing where a slot is left alone. -/
abbrev Contents := (slot : Slot) → Option (Option slot.Content)

namespace Page

/-- What a slot of a page holds. -/
def slot (page : Page) : (slot : Slot) → Option slot.Content
  | .readView => page.readView
  | .writeView => page.writeView
  | .readHandler => page.readHandler
  | .writeHandler => page.writeHandler

/-- Puts contents into the slots. -/
def put (page : Page) (contents : Contents) : Page where
  readView := (contents .readView).getD page.readView
  writeView := (contents .writeView).getD page.writeView
  readHandler := (contents .readHandler).getD page.readHandler
  writeHandler := (contents .writeHandler).getD page.writeHandler

/-- A page is known by its slots. -/
theorem ext_slot {page other : Page} (h : ∀ slot, other.slot slot = page.slot slot) :
    other = page := by
  obtain ⟨⟩ := page
  obtain ⟨⟩ := other
  rw [Page.mk.injEq]
  exact ⟨h .readView, h .writeView, h .readHandler, h .writeHandler⟩

theorem slot_put (page : Page) (contents : Contents) (slot : Slot) :
    (page.put contents).slot slot = (contents slot).getD (page.slot slot) := by
  cases slot <;> rfl

end Page

/-! ## Mapping calls -/

namespace Mapping

/-- The first page that a call covers. -/
def first : Mapping → UInt8
  | setReadView number _ | setWriteView number _ | setReadHandler number _
  | clearReadHandler number | setWriteHandler number _ | clearWriteHandler number => number
  | mapBlock first _ _ _ _ | mapReadHandler first _ _ | mapWriteHandler first _ _
  | mapNull first _ | unmap first _ _ => first

/-- The last page that a call covers. -/
def last : Mapping → UInt8
  | setReadView number _ | setWriteView number _ | setReadHandler number _
  | clearReadHandler number | setWriteHandler number _ | clearWriteHandler number => number
  | mapBlock _ last _ _ _ | mapReadHandler _ last _ | mapWriteHandler _ last _
  | mapNull _ last | unmap _ last _ => last

/-- What a call puts into the slots of a page that it covers. A block is shown page by page, so its
view depends on the distance from the first page. -/
def contents (mapping : Mapping) (distance : Nat) : Contents
  | .readView => match mapping with
    | setReadView _ view => some view
    | mapBlock _ _ block index access =>
      if access.reads then some (some ⟨block, 256 * (index + distance)⟩) else none
    | mapReadHandler .. | mapNull .. => some none
    | unmap _ _ access => if access.reads then some none else none
    | _ => none
  | .writeView => match mapping with
    | setWriteView _ view => some view
    | mapBlock _ _ block index access =>
      if access.writes then some (some ⟨block, 256 * (index + distance)⟩) else none
    | mapWriteHandler .. | mapNull .. => some none
    | unmap _ _ access => if access.writes then some none else none
    | _ => none
  | .readHandler => match mapping with
    | setReadHandler _ handler | mapReadHandler _ _ handler => some (some handler)
    | mapNull .. => some (some .null)
    | clearReadHandler _ => some none
    | mapBlock _ _ _ _ access | unmap _ _ access => if access.reads then some none else none
    | _ => none
  | .writeHandler => match mapping with
    | setWriteHandler _ handler | mapWriteHandler _ _ handler => some (some handler)
    | mapNull .. => some (some .null)
    | clearWriteHandler _ => some none
    | mapBlock _ _ _ _ access | unmap _ _ access => if access.writes then some none else none
    | _ => none

/-- Why a call is refused, if it is: its range is empty, or its block has too few pages. -/
def refusal? (mapping : Mapping) (store : Store) : Option MapError :=
  if mapping.last < mapping.first then some (.emptyRange mapping.first mapping.last)
  else match mapping with
    | mapBlock first last block index _ =>
      if index + PageTable.rangeLength first last ≤ store.pageCount block then none
      else some (.pageOutOfRange (max index (store.pageCount block)) (store.length block))
    | _ => none

/-- No call does anything to an empty range. -/
theorem apply_of_empty {mapping : Mapping} (h : mapping.last < mapping.first) (store : Store)
    (table : PageTable) :
    mapping.apply store table = .error (.emptyRange mapping.first mapping.last) := by
  cases mapping with
  | setReadView number _ | setWriteView number _ | setReadHandler number _
  | clearReadHandler number | setWriteHandler number _ | clearWriteHandler number =>
    exact absurd h (UInt8.lt_irrefl number)
  | mapBlock => exact (PageTable.mapBlock_eq ..).trans (if_pos h)
  | mapNull => exact (PageTable.mapNull_eq ..).trans (if_pos h)
  | mapReadHandler | mapWriteHandler | unmap =>
    exact (PageTable.checkRange_bind ..).trans (if_pos h)

/-- A call that is not refused puts its contents into the pages that it covers. -/
theorem apply_eq (mapping : Mapping) (store : Store) (table : PageTable) :
    mapping.apply store table = match mapping.refusal? store with
      | some error => .error error
      | none => .ok (table.updateRange mapping.first mapping.last fun distance page =>
          page.put (mapping.contents distance)) := by
  by_cases hempty : mapping.last < mapping.first
  · have hrefusal : mapping.refusal? store = some (.emptyRange mapping.first mapping.last) :=
      if_pos hempty
    rw [apply_of_empty hempty, hrefusal]
  · unfold refusal?
    rw [if_neg hempty]
    cases mapping with
    | setReadView | setWriteView | setReadHandler | clearReadHandler | setWriteHandler
    | clearWriteHandler => exact congrArg Except.ok (table.update_eq_updateRange _ _)
    | mapBlock first last block index access =>
      have hrange : ¬ last < first := hempty
      have hput : (fun distance (page : Page) =>
          page.putView access (some ⟨block, 256 * (index + distance)⟩)) = fun distance page =>
            page.put ((mapBlock first last block index access).contents distance) := by
        funext distance page
        cases access <;> rfl
      show table.mapBlock store first last block index access = _
      rw [PageTable.mapBlock_eq, if_neg hrange, hput]
      dsimp only
      split <;> rfl
    | mapNull => exact (PageTable.mapNull_eq ..).trans (if_neg hempty)
    | mapReadHandler | mapWriteHandler => exact (PageTable.checkRange_bind ..).trans (if_neg hempty)
    | unmap first last access =>
      have hput : (fun (_ : Nat) (page : Page) => page.putView access none) =
          fun distance page => page.put ((unmap first last access).contents distance) := by
        funext distance page
        cases access <;> rfl
      refine ((PageTable.checkRange_bind ..).trans (if_neg hempty)).trans ?_
      rw [hput]
      rfl

/-- What a call puts into a slot of a page, wherever that page is. -/
def puts (mapping : Mapping) (number : UInt8) (slot : Slot) : Option (Option slot.Content) :=
  if mapping.first ≤ number ∧ number ≤ mapping.last then
    mapping.contents (number.toNat - mapping.first.toNat) slot
  else none

theorem slot_of_apply {mapping : Mapping} {store : Store} {table later : PageTable}
    (h : mapping.apply store table = .ok later) (number : UInt8) (slot : Slot) :
    (later.page number).slot slot =
      (mapping.puts number slot).getD ((table.page number).slot slot) := by
  rw [apply_eq] at h
  split at h
  · cases h
  · obtain rfl := Except.ok.inj h
    rw [PageTable.page_updateRange]
    unfold puts
    split
    · exact Page.slot_put _ _ _
    · rfl

end Mapping

/-! ## Histories -/

/-- A mapping call, with the storage that it finds. -/
structure MappingCall where
  mapping : Mapping
  store : Store

namespace MappingCall

variable (call : MappingCall)

/-- What the call makes of a table. -/
def perform (table : PageTable) : Except MapError PageTable := call.mapping.apply call.store table

/-- Why the call is refused, if it is. -/
def refusal? : Option MapError := call.mapping.refusal? call.store

/-- What the call puts into a slot of a page: nothing if it is refused. -/
def puts (number : UInt8) (slot : Slot) : Option (Option slot.Content) :=
  if call.refusal?.isSome then none else call.mapping.puts number slot

end MappingCall

namespace PageTable

/-- The table after a call. One that is refused leaves it as it is. -/
def afterCall (table : PageTable) (call : MappingCall) : PageTable :=
  match call.perform table with
  | .ok later => later
  | .error _ => table

/-- The table that calls build from one that maps nothing. -/
def built (calls : List MappingCall) : PageTable := calls.foldl afterCall unmapped

theorem perform_eq (table : PageTable) (call : MappingCall) :
    call.perform table = match call.refusal? with
      | some error => .error error
      | none => .ok (table.afterCall call) := by
  unfold afterCall MappingCall.perform MappingCall.refusal?
  rw [Mapping.apply_eq]
  cases call.mapping.refusal? call.store <;> rfl

theorem slot_afterCall (table : PageTable) (call : MappingCall) (number : UInt8) (slot : Slot) :
    ((table.afterCall call).page number).slot slot =
      (call.puts number slot).getD ((table.page number).slot slot) := by
  have hperform := table.perform_eq call
  unfold MappingCall.puts
  cases hrefusal : call.refusal? with
  | some error =>
    rw [hrefusal] at hperform
    unfold afterCall
    rw [hperform]
    rfl
  | none =>
    rw [hrefusal] at hperform
    exact Mapping.slot_of_apply hperform number slot

/-- What the last call that concerns a slot puts there. Before there is one, the slot is empty. -/
def lastPut (calls : List MappingCall) (number : UInt8) (slot : Slot) : Option slot.Content :=
  (calls.reverse.findSome? fun call => call.puts number slot).join

/-- Each slot holds what the last call that concerns it has put there. -/
theorem slot_built (calls : List MappingCall) (number : UInt8) (slot : Slot) :
    ((built calls).page number).slot slot = lastPut calls number slot := by
  induction calls using List.reverseRecOn with
  | nil =>
    unfold built lastPut
    rw [List.foldl_nil, page_unmapped]
    cases slot <;> rfl
  | append_singleton calls call ih =>
    unfold built at ih ⊢
    rw [List.foldl_append, List.foldl_cons, List.foldl_nil, slot_afterCall, ih]
    unfold lastPut
    rw [List.reverse_append, List.reverse_singleton, List.singleton_append, List.findSome?_cons]
    cases call.puts number slot <;> rfl

end PageTable

/-! ## Accesses -/

/-- What a handler does about a read. A device gets the whole address. -/
def ReadHandler.answer {σ : Type} (devices : Devices σ) (address : UInt16) :
    ReadHandler → BusM σ UInt8
  | .null => return 0
  | .device id => devices.read id address

/-- What a handler does about a write. -/
def WriteHandler.take {σ : Type} (devices : Devices σ) (address : UInt16) (value : UInt8) :
    WriteHandler → BusM σ Unit
  | .null => return ()
  | .bankSwitch id => Bus.writeSwitch id value
  | .device id => devices.write id address value

namespace Bus

variable {σ : Type} (devices : Devices σ) (bus : Bus σ) (address : UInt16) (value : UInt8)

/-- The bus reads an address as a page with this view and this handler says, and tells so to who
asks for the route or peeks. -/
def ReadsBy : Option PageView → Option ReadHandler → Prop
  | some view, _ =>
    let byte := bus.store.readView view (lowByte address)
    (read devices address).run.run bus = (pure (.ok byte) : BusM σ _).run bus ∧
      bus.readRoute address = .buffer ∧ bus.peek address = some byte
  | none, some handler =>
    (read devices address).run.run bus = (.ok <$> handler.answer devices address).run bus ∧
      bus.readRoute address = .handler ∧ bus.peek address = none
  | none, none =>
    (read devices address).run.run bus =
        (pure (.error (.unmappedRead address)) : BusM σ _).run bus ∧
      bus.readRoute address = .unmapped ∧ bus.peek address = none

/-- The bus writes to an address as a page with this view and this handler says. -/
def WritesBy : Option PageView → Option WriteHandler → Prop
  | some view, _ =>
    (write devices address value).run.run bus = (.ok <$> modify fun bus : Bus σ =>
        { bus with store := bus.store.writeView view (lowByte address) value } : BusM σ _).run bus ∧
      bus.writeRoute address = .buffer
  | none, some handler =>
    (write devices address value).run.run bus =
        (.ok <$> handler.take devices address value).run bus ∧
      bus.writeRoute address = .handler
  | none, none =>
    (write devices address value).run.run bus =
        (pure (.error (.unmappedWrite address value)) : BusM σ _).run bus ∧
      bus.writeRoute address = .unmapped

/-- The slots of its page say how an address is read. -/
theorem readsBy_page {page : Page} (hpage : bus.pages.page (highByte address) = page) :
    bus.ReadsBy devices address page.readView page.readHandler := by
  have hrun : (read devices address).run.run bus = _ := run_read_eq
  rw [hpage] at hrun
  obtain ⟨view, writeView, handler, writeHandler⟩ := page
  cases view with
  | some view =>
    refine ⟨hrun, ?_, ?_⟩
    · simp [readRoute, Page.readRoute, hpage]
    · simp [peek, hpage]
  | none =>
    cases handler with
    | some handler =>
      refine ⟨?_, ?_, ?_⟩
      · cases handler <;> exact hrun
      · simp [readRoute, Page.readRoute, hpage]
      · simp [peek, hpage]
    | none =>
      refine ⟨hrun, ?_, ?_⟩
      · simp [readRoute, Page.readRoute, hpage]
      · simp [peek, hpage]

/-- The slots of its page say how an address is written. -/
theorem writesBy_page {page : Page} (hpage : bus.pages.page (highByte address) = page) :
    bus.WritesBy devices address value page.writeView page.writeHandler := by
  have hrun : (write devices address value).run.run bus = _ := run_write_eq
  rw [hpage] at hrun
  obtain ⟨readView, view, readHandler, handler⟩ := page
  cases view with
  | some view =>
    refine ⟨hrun, ?_⟩
    simp [writeRoute, Page.writeRoute, hpage]
  | none =>
    cases handler with
    | some handler =>
      refine ⟨?_, ?_⟩
      · cases handler <;> exact hrun
      · simp [writeRoute, Page.writeRoute, hpage]
    | none =>
      refine ⟨hrun, ?_⟩
      simp [writeRoute, Page.writeRoute, hpage]

/-- A bus whose pages have been mapped by any calls, refused ones among them, behaves as the list
of the calls says. A call is refused for the reasons of `Mapping.refusal?` and then changes nothing;
each slot of each page holds what the last call that was not refused and concerns it has put there;
and reads, writes, routes and peeks follow from these slots. -/
theorem accesses_by_history (calls : List MappingCall) :
    (∀ call : MappingCall, match call.refusal? with
      | some error => call.perform (PageTable.built calls) = .error error ∧
          PageTable.built (calls ++ [call]) = PageTable.built calls
      | none => call.perform (PageTable.built calls) =
          .ok (PageTable.built (calls ++ [call]))) ∧
    (∀ number slot, ((PageTable.built calls).page number).slot slot =
      PageTable.lastPut calls number slot) ∧
    let mapped := { bus with pages := PageTable.built calls }
    ∀ address,
      mapped.ReadsBy devices address
        (PageTable.lastPut calls (highByte address) .readView)
        (PageTable.lastPut calls (highByte address) .readHandler) ∧
      ∀ value, mapped.WritesBy devices address value
        (PageTable.lastPut calls (highByte address) .writeView)
        (PageTable.lastPut calls (highByte address) .writeHandler) := by
  refine ⟨fun call => ?_, PageTable.slot_built calls, ?_⟩
  · have hbuilt : PageTable.built (calls ++ [call]) = (PageTable.built calls).afterCall call := by
      unfold PageTable.built
      rw [List.foldl_append, List.foldl_cons, List.foldl_nil]
    have hperform := (PageTable.built calls).perform_eq call
    rw [hbuilt]
    cases hrefusal : call.refusal? with
    | some error =>
      rw [hrefusal] at hperform
      refine ⟨hperform, ?_⟩
      unfold PageTable.afterCall
      rw [hperform]
    | none =>
      rw [hrefusal] at hperform
      exact hperform
  · intro mapped address
    rw [← PageTable.slot_built, ← PageTable.slot_built]
    refine ⟨mapped.readsBy_page devices address rfl, fun value => ?_⟩
    rw [← PageTable.slot_built, ← PageTable.slot_built]
    exact mapped.writesBy_page devices address value rfl

end Bus

end Mc6809
