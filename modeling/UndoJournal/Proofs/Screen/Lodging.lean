import UndoJournal.Proofs.Screen.Push

/-!
# The listeners of a link among others

The view of a screen may have other listeners than those of the link, who come, go, and are blocked
and unblocked as they like (`Visit`). `Hub.Lodges` says which slots are the link's: those that it
has handles for, at most one of each kind.

So what ends a link takes its own slots out of the hub (`Screen.Lodges.ends`): **every other slot
stays, in its order, and blocked or not as it was**. An emission calls the link at most once, and
never after its end (`Screen.Lodges.receivers`).
-/

namespace UndoJournal

/-! ### Slots -/

/-- A slot without regard to whether it is blocked. -/
def Slot.unblocked {κ : Type} (slot : Slot κ) : Slot κ := { slot with blocked := false }

namespace Hub

variable {κ : Type}

/-- Blocking changes nothing but whether slots are blocked. -/
private theorem unblocked_setBlocked (h : Hub κ) (c : Connection) (blocked : Bool) :
    (h.setBlocked c blocked).slots.map Slot.unblocked = h.slots.map Slot.unblocked ∧
      (h.setBlocked c blocked).nextId = h.nextId := by
  unfold setBlocked
  split
  · refine ⟨?_, rfl⟩
    rw [List.map_map]
    refine List.map_congr_left fun slot _ => ?_
    rw [Function.comp_apply]
    split <;> rfl
  · exact ⟨rfl, rfl⟩

private theorem unblocked_foldl_setBlocked (cs : List Connection) (blocked : Bool) (h : Hub κ) :
    (cs.foldl (fun h c => h.setBlocked c blocked) h).slots.map Slot.unblocked =
        h.slots.map Slot.unblocked ∧
      (cs.foldl (fun h c => h.setBlocked c blocked) h).nextId = h.nextId := by
  induction cs generalizing h with
  | nil => exact ⟨rfl, rfl⟩
  | cons c cs ih =>
    have hfirst := h.unblocked_setBlocked c blocked
    have hrest := ih (h.setBlocked c blocked)
    exact ⟨hrest.1.trans hfirst.1, hrest.2.trans hfirst.2⟩

/-- Blocking adds no slots. -/
theorem exists_of_mem_foldl_setBlocked {cs : List Connection} {blocked : Bool} {h : Hub κ}
    {slot : Slot κ} (hs : slot ∈ (cs.foldl (fun h c => h.setBlocked c blocked) h).slots) :
    ∃ slot' ∈ h.slots, slot'.id = slot.id := by
  have hmem := List.mem_map_of_mem (f := Slot.unblocked) hs
  rw [(unblocked_foldl_setBlocked cs blocked h).1] at hmem
  obtain ⟨slot', hslot', heq⟩ := List.mem_map.mp hmem
  exact ⟨slot', hslot', (Slot.mk.inj heq).1⟩

/-- Disconnecting a handle takes away the slot that it is linked to. -/
private theorem slots_disconnect (h : Hub κ) (c : Connection) :
    (h.disconnect c).slots = h.slots.filter fun slot => !(c.linked && slot.id == c.id) := by
  unfold disconnect
  cases hc : c.linked <;> simp [bne]

/-- Disconnecting handles takes away the slots that they are linked to. -/
theorem slots_foldl_disconnect (cs : List Connection) (h : Hub κ) :
    (cs.foldl disconnect h).slots =
      h.slots.filter fun slot => !cs.any fun c => c.linked && slot.id == c.id := by
  induction cs generalizing h with
  | nil => simp
  | cons c cs ih =>
    rw [List.foldl_cons, ih, slots_disconnect, List.filter_filter]
    refine List.filter_congr fun slot _ => ?_
    rw [List.any_cons, Bool.not_or, Bool.and_comm]

private theorem nextId_foldl_disconnect (cs : List Connection) (h : Hub κ) :
    (cs.foldl disconnect h).nextId = h.nextId := by
  induction cs generalizing h with
  | nil => rfl
  | cons c cs ih =>
    rw [List.foldl_cons, ih, disconnect]
    split <;> rfl

end Hub

/-! ### Other listeners -/

/-- Others than a link connect, block and remove listeners of their own in the hub of its view. -/
inductive Visit where
  /-- The listener of that number is connected. -/
  | connect (kind : SignalKind) (number : Nat)
  /-- The listener of a handle is blocked or unblocked. -/
  | block (c : Connection) (blocked : Bool)
  /-- The listener of a handle is removed. -/
  | disconnect (c : Connection)

namespace Hub

/-- The hub after others did something with it. -/
def visited (hub : Hub Listener) : Visit → Hub Listener
  | .connect kind number => (hub.connect kind (.other number)).2
  | .block c blocked => hub.setBlocked c blocked
  | .disconnect c => hub.disconnect c

/-- The slots of the link are those that it has handles for, at most one of each kind. -/
structure Lodges (hub : Hub Listener) (connections : List Connection) : Prop where
  own : ∀ slot ∈ hub.slots, slot.listener = .link ↔
    ∃ c ∈ connections, c.linked = true ∧ c.id = slot.id
  single : hub.slots.Pairwise fun x y => x.listener = .link → y.listener = .link → x.kind ≠ y.kind
  /-- No number is given twice. -/
  fresh : (∀ slot ∈ hub.slots, slot.id < hub.nextId) ∧ ∀ c ∈ connections, c.id < hub.nextId

namespace Lodges

variable {hub hub' : Hub Listener} {connections : List Connection}

theorem empty : Lodges .empty [] := ⟨nofun, .nil, nofun, nofun⟩

/-- Slots may be taken away, and blocked. -/
private theorem of_sublist (h : hub.Lodges connections)
    (hslots : (hub'.slots.map Slot.unblocked).Sublist (hub.slots.map Slot.unblocked))
    (hnext : hub'.nextId = hub.nextId) : hub'.Lodges connections := by
  have hmem : ∀ slot ∈ hub'.slots, ∃ slot' ∈ hub.slots,
      slot'.id = slot.id ∧ slot'.listener = slot.listener := fun slot hslot => by
    obtain ⟨slot', hslot', heq⟩ :=
      List.mem_map.mp (hslots.subset (List.mem_map_of_mem (f := Slot.unblocked) hslot))
    obtain ⟨hid, -, hlistener, -⟩ := Slot.mk.inj heq
    exact ⟨slot', hslot', hid, hlistener⟩
  refine ⟨fun slot hslot => ?_, ?_, fun slot hslot => ?_, fun c hc => hnext ▸ h.fresh.2 c hc⟩
  · obtain ⟨slot', hslot', hid, hlistener⟩ := hmem slot hslot
    rw [← hid, ← hlistener]
    exact h.own slot' hslot'
  · -- neither kind nor listener depends on whether a slot is blocked
    have hsingle : (hub.slots.map Slot.unblocked).Pairwise fun x y =>
        x.listener = .link → y.listener = .link → x.kind ≠ y.kind :=
      List.pairwise_map.mpr h.single
    exact List.pairwise_map.mp (hsingle.sublist hslots)
  · obtain ⟨slot', hslot', hid, -⟩ := hmem slot hslot
    rw [← hid, hnext]
    exact h.fresh.1 slot' hslot'

/-- Others may come and go. -/
theorem visited (h : hub.Lodges connections) (v : Visit) :
    (hub.visited v).Lodges connections := by
  cases v with
  | connect kind number =>
    refine ⟨fun slot hslot => ?_, ?_, fun slot hslot => ?_, fun c hc =>
      Nat.lt_succ_of_lt (h.fresh.2 c hc)⟩
    · obtain hold | hnew := List.mem_append.mp hslot
      · exact h.own slot hold
      · obtain rfl := List.mem_singleton.mp hnew
        refine iff_of_false nofun ?_
        rintro ⟨c, hc, -, hid⟩
        exact absurd hid (Nat.ne_of_lt (h.fresh.2 c hc))
    · refine List.pairwise_append.mpr ⟨h.single, List.pairwise_singleton _ _, ?_⟩
      intro x _ y hy _ hlink
      obtain rfl := List.mem_singleton.mp hy
      cases hlink
    · obtain hold | hnew := List.mem_append.mp hslot
      · exact Nat.lt_succ_of_lt (h.fresh.1 slot hold)
      · obtain rfl := List.mem_singleton.mp hnew
        exact Nat.lt_succ_self _
  | block c blocked =>
    have hblock := hub.unblocked_setBlocked c blocked
    exact h.of_sublist (hblock.1 ▸ .refl _) hblock.2
  | disconnect c =>
    refine h.of_sublist ?_ (nextId_foldl_disconnect [c] hub)
    change ((hub.disconnect c).slots.map _).Sublist _
    rw [slots_disconnect]
    exact List.filter_sublist.map _

/-- Where the link has no handles, it has no slots. -/
theorem ne_link (h : hub.Lodges []) : ∀ slot ∈ hub.slots, slot.listener ≠ .link := by
  intro slot hslot hlink
  obtain ⟨c, hc, -⟩ := (h.own slot hslot).mp hlink
  exact List.not_mem_nil hc

/-- Without its handles, the link has no slots, and all others are left. -/
private theorem disconnect (h : hub.Lodges connections) :
    (connections.foldl Hub.disconnect hub).slots = hub.slots.filter (·.listener ≠ .link) ∧
      (connections.foldl Hub.disconnect hub).Lodges [] := by
  have hslots : (connections.foldl Hub.disconnect hub).slots =
      hub.slots.filter (·.listener ≠ .link) := by
    refine (slots_foldl_disconnect _ _).trans (List.filter_congr fun slot hslot => ?_)
    rw [decide_not, Bool.not_inj_iff, Bool.eq_iff_iff, decide_eq_true_iff, h.own slot hslot,
      List.any_eq_true]
    refine exists_congr fun c => and_congr_right fun _ => ?_
    rw [Bool.and_eq_true, beq_iff_eq, @eq_comm _ slot.id]
  have hmem : ∀ slot ∈ (connections.foldl Hub.disconnect hub).slots,
      slot ∈ hub.slots ∧ slot.listener ≠ .link := fun slot hslot => by
    rw [hslots] at hslot
    exact ⟨(List.mem_filter.mp hslot).1, of_decide_eq_true (List.mem_filter.mp hslot).2⟩
  refine ⟨hslots, fun slot hslot => iff_of_false (hmem slot hslot).2 (by simp), ?_,
    fun slot hslot => ?_, nofun⟩
  · rw [hslots]
    exact h.single.filter _
  · rw [nextId_foldl_disconnect]
    exact h.fresh.1 slot (hmem slot hslot).1

/-- An emission calls the link at most once, and only if it has handles. -/
theorem receivers (h : hub.Lodges connections) (signal : Signal) :
    ((hub.receivers signal).Pairwise fun x y => x = .link → y ≠ .link) ∧
      (.link ∈ hub.receivers signal → connections ≠ []) := by
  constructor
  · have hkind : ∀ x ∈ hub.slots.filter (fun slot => slot.kind == signal.kind && !slot.blocked),
        x.kind = signal.kind := fun x hx => by
      simpa using (Bool.and_eq_true_iff.mp (List.mem_filter.mp hx).2).1
    refine List.pairwise_map.mpr ((h.single.filter _).imp_of_mem ?_)
    exact fun hx hy hne hxlink hylink => hne hxlink hylink ((hkind _ hx).trans (hkind _ hy).symm)
  · rintro hmem rfl
    obtain ⟨slot, hslot, hlink⟩ := List.mem_map.mp hmem
    exact h.ne_link slot (List.mem_filter.mp hslot).1 hlink

end Lodges

end Hub

namespace Screen

/-! ### A link that joins others -/

/-- A screen around a view that others may listen to, with a fresh link that listens for what is
handled. Around a view that nobody listens to it is `Screen.assemble`. -/
def join (settings : ViewSettings) (handlers : Handlers) (traffic : Option Traffic)
    (w : Widget Listener) : Screen :=
  let (connections, hub) := connectAll w.hub handlers.kinds
  ⟨⟨w.outline, hub⟩, traffic, .fresh settings connections⟩

/-- Connecting the listeners of a link puts a slot behind the others for each kind. -/
theorem exists_connectAll (kinds : List SignalKind) (hub : Hub Listener) :
    ∃ new : List (Slot Listener), (connectAll hub kinds).2.slots = hub.slots ++ new ∧
      new.map Slot.kind = kinds ∧
      (connectAll hub kinds).1 = new.map (fun slot => ⟨slot.kind, slot.id, true⟩) ∧
      hub.nextId ≤ (connectAll hub kinds).2.nextId ∧ ∀ slot ∈ new, slot.listener = .link ∧
        hub.nextId ≤ slot.id ∧ slot.id < (connectAll hub kinds).2.nextId := by
  induction kinds generalizing hub with
  | nil => exact ⟨[], (List.append_nil _).symm, rfl, rfl, Nat.le_refl _, nofun⟩
  | cons kind kinds ih =>
    obtain ⟨new, hslots, hkinds, hhandles, hle, hnew⟩ := ih (hub.connect kind .link).2
    have hle' : hub.nextId + 1 ≤ (connectAll (hub.connect kind .link).2 kinds).2.nextId := hle
    refine ⟨⟨hub.nextId, kind, .link, false⟩ :: new, ?_, congrArg (kind :: ·) hkinds,
      congrArg (_ :: ·) hhandles, Nat.le_of_succ_le hle', fun slot hslot => ?_⟩
    · refine hslots.trans ?_
      rw [Hub.connect, List.append_assoc, List.singleton_append]
    · obtain rfl | hslot := List.mem_cons.mp hslot
      · exact ⟨rfl, Nat.le_refl _, hle'⟩
      · obtain ⟨hlink, hge, hlt⟩ := hnew slot hslot
        exact ⟨hlink, Nat.le_of_succ_le hge, hlt⟩

/-- The listeners of a link among others. -/
private theorem lodges_connectAll {hub : Hub Listener} (h : hub.Lodges []) {kinds : List SignalKind}
    (hkinds : kinds.Nodup) : (connectAll hub kinds).2.Lodges (connectAll hub kinds).1 := by
  obtain ⟨new, hslots, rfl, hhandles, hle, hnew⟩ := exists_connectAll kinds hub
  refine ⟨fun slot hslot => ?_, ?_, fun slot hslot => ?_, fun c hc => ?_⟩
  · rw [hhandles]
    obtain hold | hmem := List.mem_append.mp (hslots ▸ hslot)
    · refine iff_of_false (h.ne_link slot hold) ?_
      rintro ⟨c, hc, -, hid⟩
      obtain ⟨slot', hslot', rfl⟩ := List.mem_map.mp hc
      have hge := (hnew slot' hslot').2.1
      have hlt := h.fresh.1 slot hold
      change slot'.id = slot.id at hid
      omega
    · exact iff_of_true (hnew slot hmem).1 ⟨_, List.mem_map_of_mem hmem, rfl, rfl⟩
  · rw [hslots, List.pairwise_append]
    exact ⟨h.single, (List.pairwise_map.mp hkinds).imp fun hne _ _ => hne,
      fun x hx y _ hlink => absurd hlink (h.ne_link x hx)⟩
  · obtain hold | hmem := List.mem_append.mp (hslots ▸ hslot)
    · exact Nat.lt_of_lt_of_le (h.fresh.1 slot hold) hle
    · exact (hnew slot hmem).2.2
  · rw [hhandles] at hc
    obtain ⟨slot, hslot, rfl⟩ := List.mem_map.mp hc
    exact (hnew slot hslot).2.2

/-! ### The end of a link -/

/-- What the end of a link takes away: the link and its own slots, and nothing if it had ended
before. -/
structure Ends (before after : Screen) : Prop where
  outline : after.widget.outline = before.widget.outline
  traffic : after.traffic = before.traffic
  link : after.link = { before.link with disconnected := true, connections := [] }
  /-- All other listeners stay, in their order, and blocked or not as they were. -/
  slots : after.widget.hub.slots = before.widget.hub.slots.filter (·.listener ≠ .link)
  again : before.link.disconnected = true → after = before

/-- The link has its slots among others, and none once it is disconnected. -/
structure Lodges (s : Screen) : Prop where
  hub : s.widget.hub.Lodges s.link.connections
  free : s.link.disconnected = true → s.link.connections = []

namespace Lodges

variable {s s' : Screen}

theorem join (settings : ViewSettings) (handlers : Handlers) (traffic : Option Traffic)
    {w : Widget Listener} (h : w.hub.Lodges []) :
    (Screen.join settings handlers traffic w).Lodges := by
  refine ⟨lodges_connectAll h ?_, nofun⟩
  obtain ⟨select, expand, collapse⟩ := handlers
  cases select <;> cases expand <;> cases collapse <;> decide

/-- What leaves hub, handles and presence as they were. -/
theorem of_eq (h : s.Lodges) (hhub : s'.widget.hub = s.widget.hub)
    (hconn : s'.link.connections = s.link.connections)
    (hgone : s'.link.disconnected = s.link.disconnected) : s'.Lodges where
  hub := by
    rw [hhub, hconn]
    exact h.hub
  free hd := hconn.trans (h.free (hgone ▸ hd))

theorem framed (h : s.Lodges) (hs : s.Framed s') : s'.Lodges := by
  refine h.of_eq hs.hub ?_ ?_ <;> rw [hs.link]

theorem visited (h : s.Lodges) (v : Visit) :
    Lodges { s with widget := { s.widget with hub := s.widget.hub.visited v } } :=
  ⟨h.hub.visited v, h.free⟩

theorem blockListeners (h : s.Lodges) (blocked : Bool) : (s.blockListeners blocked).Lodges :=
  have hblock := Hub.unblocked_foldl_setBlocked s.link.connections blocked s.widget.hub
  ⟨h.hub.of_sublist (hblock.1 ▸ .refl _) hblock.2, h.free⟩

/-- Where the link is gone, so are its slots. -/
theorem gone (h : s.Lodges) (hd : s.link.disconnected = true) : s.widget.hub.Lodges [] :=
  h.free hd ▸ h.hub

/-- **An emission calls the link at most once**, and only a link that is there. -/
theorem receivers (h : s.Lodges) (signal : Signal) :
    ((s.widget.hub.receivers signal).Pairwise fun x y => x = .link → y ≠ .link) ∧
      (.link ∈ s.widget.hub.receivers signal → s.link.disconnected = false) := by
  refine (h.hub.receivers signal).imp_right fun hcalls hmem => ?_
  rw [← Bool.not_eq_true]
  exact fun hd => hcalls hmem (h.free hd)

/-- **The end of a link is its own**, and there is only one. -/
theorem ends (h : s.Lodges) :
    Screen.disconnect.Gives s fun _ s' => s.Ends s' ∧ s'.Lodges := by
  simp only [Screen.disconnect, Action.gives_bind, Action.gives_get]
  split
  · rename_i hd
    have hlink : s.link = { s.link with disconnected := true, connections := [] } := by
      rw [← hd, ← h.free hd]
    refine (Action.gives_pure _).mpr ⟨⟨rfl, rfl, hlink, ?_, fun _ => rfl⟩, h⟩
    exact (List.filter_eq_self.mpr fun slot hslot =>
      decide_eq_true ((h.gone hd).ne_link slot hslot)).symm
  · rename_i hd
    obtain ⟨hslots, hlodges⟩ := h.hub.disconnect
    simp only [Action.gives_modify, Action.gives_note, Action.gives_bind]
    exact ⟨⟨rfl, rfl, rfl, hslots, fun hd' => absurd hd' hd⟩, hlodges, fun _ => rfl⟩

end Lodges

end Screen

end UndoJournal
