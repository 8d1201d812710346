import Mathlib.Data.List.Nodup
import Mathlib.Data.List.Pairwise
import UndoJournal.Bench.Hub

/-!
# What a log says about a hub

Everything that happens to a hub and to the handles of its listeners can be written down in a log,
where listeners go by their index and slots do not occur. The log alone says who is registered,
whose registration has ended and who is blocked (`HubEvent.told`).

**The hub is what the log says** (`Told.Keeps`): there is a slot for each registration that has not
ended, in order, and a handle refers to the slot of its own registration or to none. Each thing that
is done with the hub or a handle keeps that, so a handle reports, and changes, its own registration
and no other (`Keeps.isConnected_iff`, `Keeps.isBlocked_iff`).
-/

namespace UndoJournal

/-! ### Logs -/

/-- What can happen to a hub. Listeners and handles go by their index. -/
inductive HubEvent where
  /-- A listener was registered, and its slot has that number. -/
  | connected (index : Nat) (kind : SignalKind) (id : Nat)
  /-- A handle was used to block its listener, or to unblock it. -/
  | blocked (index : Nat) (blocked : Bool)
  /-- A handle was used to disconnect its listener, or it was dropped. -/
  | disconnected (index : Nat)
  /-- The hub was dropped. -/
  | closed
  /-- A handle was asked whether its listener is registered and whether it is blocked. -/
  | reported (index : Nat) (connected blocked : Bool)
  /-- An emission started. -/
  | began (emission : Nat) (signal : Signal)
  /-- An emission called a listener. -/
  | called (emission index : Nat) (signal : Signal)
deriving DecidableEq

/-- A listener that was registered. -/
structure Registration where
  /-- The index of the listener. -/
  index : Nat
  /-- The kind of signals it is for. -/
  kind : SignalKind
  /-- The number of its slot. -/
  id : Nat

/-- Registrations, ends and blocks that a log tells of. -/
structure Told where
  /-- All registrations, in order. -/
  registrations : List Registration
  /-- Whose handle was disconnected or dropped. -/
  ended : Nat → Bool
  /-- Who was last said to be blocked. -/
  blocked : Nat → Bool
  /-- Whether the hub was dropped. -/
  closed : Bool

namespace Told

/-- A fresh hub: nobody is registered, ended or blocked. -/
def nothing : Told := ⟨[], fun _ => false, fun _ => false, false⟩

/-- What was told, brought up to date with one more event. -/
def tell (t : Told) : HubEvent → Told
  | .connected index kind id => { t with registrations := t.registrations ++ [⟨index, kind, id⟩] }
  | .blocked index isBlocked => { t with blocked := Function.update t.blocked index isBlocked }
  | .disconnected index => { t with ended := Function.update t.ended index true }
  | .closed => { t with closed := true }
  | .reported _ _ _ | .began _ _ | .called _ _ _ => t

/-- A listener was registered and is still. -/
def Live (t : Told) (index : Nat) : Prop :=
  (∃ r ∈ t.registrations, r.index = index) ∧ t.ended index = false ∧ t.closed = false

/-- The registrations that have not ended. -/
def live (t : Told) : List Registration :=
  t.registrations.filter fun r => !t.ended r.index && !t.closed

/-- The listeners that an emission of a signal has to call: those that are live, for the signal's
kind and not blocked, in order of registration. -/
def receivers (t : Told) (signal : Signal) : List Nat :=
  (t.live.filter fun r => r.kind == signal.kind && !t.blocked r.index).map Registration.index

end Told

namespace HubEvent

/-- Who is registered, whose registration has ended and who is blocked, after all events of a log,
the oldest first. -/
def told (log : List HubEvent) : Told := log.foldl Told.tell .nothing

theorem told_concat (log : List HubEvent) (event : HubEvent) :
    told (log ++ [event]) = (told log).tell event := List.foldl_concat ..

/-- The calls of an emission, in order. -/
def calls (emission : Nat) (log : List HubEvent) : List (Nat × Signal) :=
  log.filterMap fun
    | called e index signal => if e = emission then some (index, signal) else none
    | _ => none

end HubEvent

/-! ### A hub that is what was told -/

namespace Told

variable {t : Told} {b : HubBench} {r r' : Registration} {index : Nat} {c : Connection}
  {kind : SignalKind}

/-- The slot of a registration. -/
def slotOf (t : Told) (r : Registration) : Slot Nat := ⟨r.id, r.kind, r.index, t.blocked r.index⟩

/-- What a handle refers to: nothing, or the slot of a registration that it has not ended. -/
inductive Refers (t : Told) (index : Nat) (c : Connection) : Prop where
  | nothing (hlinked : c.linked = false)
      (hended : ∀ r ∈ t.registrations, r.index = index → t.ended index = true)
  | slot (r : Registration) (hlinked : c.linked = true) (hr : r ∈ t.registrations)
      (hindex : r.index = index) (hid : r.id = c.id) (hkept : t.ended index = false)

/-- **The hub is what was told.** -/
structure Keeps (t : Told) (b : HubBench) : Prop where
  /-- There is a slot for each registration that has not ended, in order. -/
  slots : b.hub.slots = t.live.map t.slotOf
  /-- No index, and no number of a slot, is given out twice. -/
  indices : t.registrations.Pairwise fun r r' => r.index < r'.index
  ids : t.registrations.Pairwise fun r r' => r.id < r'.id
  nextId : t.closed = false → ∀ r ∈ t.registrations, r.id < b.hub.nextId
  /-- Nothing was said about a listener that is still to come. -/
  known : ∀ r ∈ t.registrations, r.index < b.handles.length
  unended : ∀ index, b.handles.length ≤ index → t.ended index = false
  unblocked : ∀ index, b.handles.length ≤ index → t.blocked index = false
  present : b.present = !t.closed
  refers : ∀ index c, b.handle? index = some c → t.Refers index c

theorem keeps_nothing : nothing.Keeps .empty := by
  refine ⟨rfl, List.Pairwise.nil, List.Pairwise.nil, ?_, ?_, fun _ _ => rfl, fun _ _ => rfl, rfl,
    ?_⟩
  · simp [nothing]
  · simp [nothing]
  · simp [HubBench.empty, HubBench.handle?]

/-- What rises along a list tells its elements apart. -/
private theorem eq_of_rising {α : Type} {l : List α} {f : α → Nat}
    (h : l.Pairwise fun a b => f a < f b) {a b : α} (ha : a ∈ l) (hb : b ∈ l) (hf : f a = f b) :
    a = b := by
  have hnodup : (l.map f).Nodup := List.pairwise_map.mpr (h.imp Nat.ne_of_lt)
  exact List.inj_on_of_nodup_map hnodup ha hb hf

/-- Registrations are told apart by their slots as well as by their listeners. -/
private theorem Keeps.id_eq_iff (h : t.Keeps b) (hr : r ∈ t.registrations)
    (hr' : r' ∈ t.registrations) :
    r.id = r'.id ↔ r.index = r'.index :=
  ⟨fun heq => congrArg Registration.index (eq_of_rising h.ids hr hr' heq),
    fun heq => congrArg Registration.id (eq_of_rising h.indices hr hr' heq)⟩

private theorem mem_live : r ∈ t.live ↔
    r ∈ t.registrations ∧ t.ended r.index = false ∧ t.closed = false := by
  simp [live]

/-- A handle that is kept is that of a listener which is there. -/
private theorem lt_of_handle? (hc : b.handle? index = some c) : index < b.handles.length := by
  by_contra hle
  rw [HubBench.handle?, List.getElem?_eq_none (Nat.le_of_not_lt hle)] at hc
  cases hc

/-! ### What is done with a handle -/

/-- A handle that refers to nothing leaves the slots alone, and none of them is its listener's. -/
private theorem Keeps.slot_cases (h : t.Keeps b) (hc : b.handle? index = some c) :
    c.linked = false ∧ (∀ s ∈ b.hub.slots, s.listener ≠ index) ∨
      c.linked = true ∧ ∀ s ∈ b.hub.slots, s.id = c.id ↔ s.listener = index := by
  rw [h.slots]
  simp only [List.forall_mem_map]
  cases h.refers index c hc with
  | nothing hlinked hended =>
    refine .inl ⟨hlinked, fun r hr hindex => ?_⟩
    obtain ⟨hmem, hkept, -⟩ := mem_live.mp hr
    have hindex : r.index = index := hindex
    rw [hindex, hended r hmem hindex] at hkept
    cases hkept
  | slot r₀ hlinked hr₀ hindex₀ hid₀ hkept =>
    refine .inr ⟨hlinked, fun r hr => ?_⟩
    have hiff := h.id_eq_iff (mem_live.mp hr).1 hr₀
    rwa [hid₀, hindex₀] at hiff

/-- **A handle takes away its own slot**, and no other. -/
theorem Keeps.slots_disconnect (h : t.Keeps b) (hc : b.handle? index = some c) :
    (b.hub.disconnect c).slots = b.hub.slots.filter fun s => s.listener != index := by
  obtain ⟨hlinked, hother⟩ | ⟨hlinked, hiff⟩ := h.slot_cases hc
  · rw [Hub.disconnect, if_neg (by simp [hlinked]), List.filter_eq_self.mpr]
    exact fun s hs => bne_iff_ne.mpr (hother s hs)
  · rw [Hub.disconnect, if_pos hlinked]
    refine List.filter_congr fun s hs => ?_
    rw [Bool.eq_iff_iff, bne_iff_ne, bne_iff_ne]
    exact not_congr (hiff s hs)

/-- **A handle blocks its own slot**, and no other. -/
theorem Keeps.slots_setBlocked (h : t.Keeps b) (hc : b.handle? index = some c) (isBlocked : Bool) :
    (b.hub.setBlocked c isBlocked).slots =
      b.hub.slots.map fun s =>
        if s.listener = index then { s with blocked := isBlocked } else s := by
  obtain ⟨hlinked, hother⟩ | ⟨hlinked, hiff⟩ := h.slot_cases hc
  · rw [Hub.setBlocked, if_neg (by simp [hlinked])]
    conv => lhs; rw [← List.map_id b.hub.slots]
    exact List.map_congr_left fun s hs => (if_neg (hother s hs)).symm
  · rw [Hub.setBlocked, if_pos hlinked]
    refine List.map_congr_left fun s hs => ?_
    simp only [beq_iff_eq, hiff s hs]

/-- Blocking and unblocking through a handle is about its own listener. -/
theorem Keeps.block (h : t.Keeps b) (hc : b.handle? index = some c) (isBlocked : Bool) :
    (t.tell (.blocked index isBlocked)).Keeps (b.block index isBlocked) := by
  have hblock : b.block index isBlocked = { b with hub := b.hub.setBlocked c isBlocked } := by
    rw [HubBench.block, hc]
  rw [hblock]
  refine ⟨?_, h.indices, h.ids, fun hclosed r hr => ?_, h.known, h.unended, fun i hi => ?_,
    h.present, fun i d hd => ?_⟩
  · refine (h.slots_setBlocked hc isBlocked).trans ?_
    rw [h.slots, List.map_map]
    refine List.map_congr_left fun r _ => ?_
    by_cases hindex : r.index = index
    · simp [slotOf, tell, hindex]
    · simp [slotOf, tell, hindex]
  · have hlt := h.nextId hclosed r hr
    unfold Hub.setBlocked
    split <;> exact hlt
  · have hne : i ≠ index := Nat.ne_of_gt (Nat.lt_of_lt_of_le (lt_of_handle? hc) hi)
    exact (Function.update_of_ne hne ..).trans (h.unblocked i hi)
  · cases h.refers i d hd with
    | nothing hlinked hended => exact .nothing hlinked hended
    | slot r hlinked hr hindex hid hkept => exact .slot r hlinked hr hindex hid hkept

/-- Ending a registration through a handle takes its slot away; the handle is kept without a link,
or it is dropped. -/
private theorem Keeps.ending (h : t.Keeps b) (hc : b.handle? index = some c) {x : Option Connection}
    (hx : ∀ c', x = some c' → c'.linked = false) :
    (t.tell (.disconnected index)).Keeps
      { b with hub := b.hub.disconnect c, handles := b.handles.set index x } := by
  have hlt : index < b.handles.length := lt_of_handle? hc
  refine ⟨?_, h.indices, h.ids, fun hclosed r hr => ?_, fun r hr => ?_, fun i hi => ?_,
    fun i hi => ?_, h.present, fun i d hd => ?_⟩
  · refine (h.slots_disconnect hc).trans ?_
    rw [h.slots, List.filter_map, live, live, List.filter_filter]
    refine congrArg (List.map t.slotOf) (List.filter_congr fun r _ => ?_)
    by_cases hindex : r.index = index
    · simp [slotOf, tell, hindex]
    · simp [slotOf, tell, hindex]
  · have hid := h.nextId hclosed r hr
    unfold Hub.disconnect
    split <;> exact hid
  · rw [List.length_set]
    exact h.known r hr
  · rw [List.length_set] at hi
    have hne : i ≠ index := Nat.ne_of_gt (Nat.lt_of_lt_of_le hlt hi)
    exact (Function.update_of_ne hne ..).trans (h.unended i hi)
  · rw [List.length_set] at hi
    exact h.unblocked i hi
  · -- this handle refers to nothing any more, the others to what they did
    by_cases hi : i = index
    · subst hi
      have hx' : x = some d := by simpa [HubBench.handle?, hlt] using hd
      exact .nothing (hx d hx') fun r _ _ => Function.update_self ..
    · have hd : b.handle? i = some d := by
        rw [HubBench.handle?, List.getElem?_set_ne (Ne.symm hi)] at hd
        exact hd
      cases h.refers i d hd with
      | nothing hlinked hended =>
        exact .nothing hlinked fun r hr hindex =>
          (Function.update_of_ne hi ..).trans (hended r hr hindex)
      | slot r hlinked hr hindex hid hkept =>
        exact .slot r hlinked hr hindex hid ((Function.update_of_ne hi ..).trans hkept)

/-- Disconnecting through a handle ends its own registration. -/
theorem Keeps.disconnect (h : t.Keeps b) (hc : b.handle? index = some c) :
    (t.tell (.disconnected index)).Keeps (b.disconnect index) := by
  rw [HubBench.disconnect, hc]
  refine h.ending hc ?_
  rintro _ ⟨⟩
  rfl

/-- Dropping a handle ends its own registration. -/
theorem Keeps.drop (h : t.Keeps b) (hc : b.handle? index = some c) :
    (t.tell (.disconnected index)).Keeps (b.drop index) := by
  have hdrop : b.drop index =
      { b with hub := b.hub.disconnect c, handles := b.handles.set index none } := by
    simp only [HubBench.drop, HubBench.disconnect, hc, List.set_set]
  rw [hdrop]
  exact h.ending hc nofun

/-! ### What is done with the hub -/

/-- A handle that is kept was kept before, or it is the one that came along. -/
private theorem handle?_concat {x : Connection} {i : Nat}
    (h : ((b.handles ++ [some x])[i]?).join = some c) :
    b.handle? i = some c ∨ i = b.handles.length ∧ x = c := by
  rcases Nat.lt_trichotomy i b.handles.length with hlt | rfl | hgt
  · rw [List.getElem?_append_left hlt] at h
    exact .inl h
  · exact .inr ⟨rfl, by simpa using h⟩
  · rw [List.getElem?_eq_none (by rw [List.length_append]; exact hgt)] at h
    cases h

/-- Connecting registers one more listener, who is not blocked. -/
theorem Keeps.connect (h : t.Keeps b) (hpresent : b.present = true) (kind : SignalKind)
    (deed : Option Deed) :
    (t.tell (.connected b.handles.length kind b.hub.nextId)).Keeps (b.connect kind deed) := by
  have hclosed : t.closed = false := by simpa using h.present.symm.trans hpresent
  have hended := h.unended _ (Nat.le_refl _)
  have hlive : (t.tell (.connected b.handles.length kind b.hub.nextId)).live =
      t.live ++ [⟨b.handles.length, kind, b.hub.nextId⟩] := by
    simp [live, tell, List.filter_append, hended, hclosed]
  have hlen : (b.connect kind deed).handles.length = b.handles.length + 1 := by
    simp [HubBench.connect]
  refine ⟨?_, ?_, ?_, fun _ r hr => ?_, fun r hr => ?_, fun i hi => ?_, fun i hi => ?_, h.present,
    fun i d hd => ?_⟩
  · rw [hlive, List.map_append]
    change b.hub.slots ++ [⟨b.hub.nextId, kind, b.handles.length, false⟩] = _
    rw [h.slots, ← h.unblocked _ (Nat.le_refl _)]
    rfl
  · refine List.pairwise_append.mpr ⟨h.indices, List.pairwise_singleton _ _, fun r hr r' hr' => ?_⟩
    obtain rfl := List.mem_singleton.mp hr'
    exact h.known r hr
  · refine List.pairwise_append.mpr ⟨h.ids, List.pairwise_singleton _ _, fun r hr r' hr' => ?_⟩
    obtain rfl := List.mem_singleton.mp hr'
    exact h.nextId hclosed r hr
  · change r.id < b.hub.nextId + 1
    obtain hr | hr := List.mem_append.mp hr
    · exact Nat.lt_succ_of_lt (h.nextId hclosed r hr)
    · obtain rfl := List.mem_singleton.mp hr
      exact Nat.lt_succ_self _
  · rw [hlen]
    obtain hr | hr := List.mem_append.mp hr
    · exact Nat.lt_succ_of_lt (h.known r hr)
    · obtain rfl := List.mem_singleton.mp hr
      exact Nat.lt_succ_self _
  · exact h.unended i (by omega)
  · exact h.unblocked i (by omega)
  · -- old handles refer to what they did, and the new one to the new slot
    obtain hd | ⟨rfl, rfl⟩ := handle?_concat hd
    · cases h.refers i d hd with
      | nothing hlinked hgone =>
        refine .nothing hlinked fun r hr hindex => ?_
        obtain hr | hr := List.mem_append.mp hr
        · exact hgone r hr hindex
        · obtain rfl := List.mem_singleton.mp hr
          exact absurd hindex (Nat.ne_of_gt (lt_of_handle? hd))
      | slot r hlinked hr hindex hid hkept =>
        exact .slot r hlinked (List.mem_append_left _ hr) hindex hid hkept
    · exact .slot _ rfl (List.mem_append_right _ (List.mem_singleton_self _)) rfl rfl hended

/-- A handle that was never connected refers to nothing. -/
theorem Keeps.connectNothing (h : t.Keeps b) (kind : SignalKind) :
    t.Keeps (b.connectNothing kind) := by
  have hlen : (b.connectNothing kind).handles.length = b.handles.length + 1 := by
    simp [HubBench.connectNothing]
  refine ⟨h.slots, h.indices, h.ids, h.nextId, fun r hr => ?_, fun i hi => h.unended i (by omega),
    fun i hi => h.unblocked i (by omega), h.present, fun i d hd => ?_⟩
  · rw [hlen]
    exact Nat.lt_succ_of_lt (h.known r hr)
  · obtain hd | ⟨rfl, rfl⟩ := handle?_concat hd
    · exact h.refers i d hd
    · exact .nothing rfl fun r hr hindex => absurd hindex (Nat.ne_of_lt (h.known r hr))

/-- Dropping the hub ends all registrations. -/
theorem Keeps.dropHub (h : t.Keeps b) : (t.tell .closed).Keeps b.dropHub := by
  refine ⟨?_, h.indices, h.ids, nofun, h.known, h.unended, h.unblocked, rfl, fun i d hd => ?_⟩
  · have hlive : (t.tell .closed).live = [] := by simp [live, tell]
    rw [hlive]
    rfl
  · cases h.refers i d hd with
    | nothing hlinked hended => exact .nothing hlinked hended
    | slot r hlinked hr hindex hid hkept => exact .slot r hlinked hr hindex hid hkept

/-! ### What handles report -/

/-- A handle finds the slot of its registration, or its listener is registered no more. -/
private theorem Keeps.slot?_cases (h : t.Keeps b) (hc : b.handle? index = some c) :
    (∃ r ∈ t.live, r.index = index ∧ b.hub.slot? c = some (t.slotOf r)) ∨
      b.hub.slot? c = none ∧ ¬ t.Live index := by
  cases h.refers index c hc with
  | nothing hlinked hended =>
    refine .inr ⟨by rw [Hub.slot?, if_neg (by simp [hlinked])], ?_⟩
    rintro ⟨⟨r, hr, hindex⟩, hkept, -⟩
    cases (hended r hr hindex).symm.trans hkept
  | slot r₀ hlinked hr₀ hindex₀ hid₀ hkept =>
    have hslot : b.hub.slot? c = (t.live.map t.slotOf).find? fun s => s.id == c.id := by
      rw [Hub.slot?, if_pos hlinked, h.slots]
    rcases hclosed : t.closed with _ | _
    · have hlive : r₀ ∈ t.live := mem_live.mpr ⟨hr₀, hindex₀ ▸ hkept, hclosed⟩
      refine .inl ⟨r₀, hlive, hindex₀, ?_⟩
      rcases hfind : b.hub.slot? c with _ | s <;> rw [hslot] at hfind
      · have hno := List.find?_eq_none.mp hfind _ (List.mem_map_of_mem hlive)
        simp [slotOf, hid₀] at hno
      · obtain ⟨r, hr, rfl⟩ := List.mem_map.mp (List.mem_of_find?_eq_some hfind)
        have hid : r.id = c.id := by simpa [slotOf] using List.find?_some hfind
        rw [eq_of_rising h.ids (mem_live.mp hr).1 hr₀ (hid.trans hid₀.symm)]
    · have hnone : t.live = [] := by simp [live, hclosed]
      exact .inr ⟨by rw [hslot, hnone]; rfl, fun hl => by cases hclosed.symm.trans hl.2.2⟩

/-- **A handle reports whether its own listener is registered.** -/
theorem Keeps.isConnected_iff (h : t.Keeps b) (hc : b.handle? index = some c) :
    b.hub.isConnected c = true ↔ t.Live index := by
  rw [Hub.isConnected]
  obtain ⟨r, hr, hindex, hslot⟩ | ⟨hslot, hdead⟩ := h.slot?_cases hc
  · obtain ⟨hmem, hkept, hclosed⟩ := mem_live.mp hr
    rw [hslot]
    exact iff_of_true rfl ⟨⟨r, hmem, hindex⟩, hindex ▸ hkept, hclosed⟩
  · rw [hslot]
    exact iff_of_false Bool.false_ne_true hdead

/-- **A handle reports whether its own listener is registered and blocked.** -/
theorem Keeps.isBlocked_iff (h : t.Keeps b) (hc : b.handle? index = some c) :
    b.hub.isBlocked c = true ↔ t.Live index ∧ t.blocked index = true := by
  have hconnected := h.isConnected_iff hc
  rw [Hub.isConnected] at hconnected
  rw [Hub.isBlocked]
  obtain ⟨r, hr, hindex, hslot⟩ | ⟨hslot, hdead⟩ := h.slot?_cases hc
  · rw [hslot] at hconnected ⊢
    rw [← hindex] at hconnected ⊢
    exact (and_iff_right (hconnected.mp rfl)).symm
  · rw [hslot]
    exact iff_of_false Bool.false_ne_true fun h => hdead h.1

/-- **The receivers of an emission are those that the log says.** -/
theorem Keeps.receivers (h : t.Keeps b) (signal : Signal) :
    b.hub.receivers signal = t.receivers signal := by
  rw [Hub.receivers, h.slots, List.filter_map, List.map_map]
  rfl

/-- Where the hub is gone, there is no slot. -/
theorem Keeps.slots_eq_nil (h : t.Keeps b) (hpresent : b.present = false) : b.hub.slots = [] := by
  have hclosed : t.closed = true := by simpa using h.present.symm.trans hpresent
  rw [h.slots]
  simp [live, hclosed]

end Told

/-- A handle without a link, or without a hub, reports nothing. -/
theorem Hub.reports_nothing {κ : Type} {hub : Hub κ} {c : Connection}
    (h : c.linked = false ∨ hub.slots = []) :
    hub.isConnected c = false ∧ hub.isBlocked c = false := by
  have hslot : hub.slot? c = none := by
    unfold slot?
    obtain h | h := h <;> simp [h]
  rw [isConnected, isBlocked, hslot]
  exact ⟨rfl, rfl⟩

/-- **A handle whose listener is not registered changes nothing**, whatever its number. -/
theorem Hub.inert_of_not_isConnected {κ : Type} {hub : Hub κ} {c : Connection}
    (h : hub.isConnected c = false) :
    hub.disconnect c = hub ∧ ∀ isBlocked, hub.setBlocked c isBlocked = hub := by
  rcases hlinked : c.linked with _ | _
  · simp [disconnect, setBlocked, hlinked]
  · have hother : ∀ s ∈ hub.slots, s.id ≠ c.id := by
      simpa [isConnected, slot?, hlinked] using h
    constructor
    · rw [disconnect, if_pos hlinked,
        List.filter_eq_self.mpr fun s hs => bne_iff_ne.mpr (hother s hs)]
    · intro isBlocked
      have hsame : hub.slots.map (fun s =>
          if s.id == c.id then { s with blocked := isBlocked } else s) = hub.slots := by
        conv => rhs; rw [← List.map_id hub.slots]
        exact List.map_congr_left fun s hs => if_neg (by simpa using hother s hs)
      rw [setBlocked, if_pos hlinked, hsame]

end UndoJournal
