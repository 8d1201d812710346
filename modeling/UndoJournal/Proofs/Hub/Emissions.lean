import UndoJournal.Proofs.Action.Outcome
import UndoJournal.Proofs.Hub.Logbook

/-!
# Emissions are snapshots

A hub is used by its owner, and by every listener while that is called: listeners connect, block,
unblock and disconnect whomever they like, and fire signals themselves, which calls listeners in the
middle of a call (`Rig.fire`). What a call does is decided by everything that happened before it, so
any behaviour of the listeners is covered; a depth bounds how far emissions nest.

Whatever is done, **each emission calls those who were to be called when it started, once each and
in order of registration** (`Rig.Faithful.snapshot`). What listeners do meanwhile neither adds nor
removes a call, and all of it counts for the next emission.
-/

namespace UndoJournal

open HubEvent

/-- One operation on a hub or on a handle. -/
inductive Errand where
  /-- Connect, block, unblock, disconnect or fire. -/
  | deed (deed : Deed)
  /-- Keep a handle that was never connected. -/
  | detached (kind : SignalKind)
  /-- Drop the handle at an index. -/
  | drop (index : Nat)
  /-- Ask the handle at an index what it reports. -/
  | look (index : Nat)

/-- A hub with the handles of its listeners, and a log of what happened to it. -/
structure Rig where
  /-- The hub and the handles. -/
  bench : HubBench
  /-- The number of emissions so far. -/
  emissions : Nat
  /-- What happened, oldest first. -/
  log : List HubEvent

namespace Rig

/-- A fresh hub. -/
def empty : Rig := ⟨.empty, 0, []⟩

/-- The hub as a part of the rig. -/
def hubLens : Lens Rig (Hub Nat) :=
  Lens.comp ⟨bench, fun b s => { s with bench := b }⟩ HubBench.hubLens

/-- Write down what happens. -/
def write (event : HubEvent) (s : Rig) : Rig := { s with log := s.log ++ [event] }

/-- Use the handle at an index, if it is kept, and write that down. -/
def handling (index : Nat) (event : Rig → Connection → HubEvent) (f : HubBench → HubBench)
    (s : Rig) : Rig :=
  match s.bench.handle? index with
  | none => s
  | some c => { s.write (event s c) with bench := f s.bench }

/-- Connect a listener, while the hub is there. -/
def connect (kind : SignalKind) (s : Rig) : Rig :=
  if s.bench.present then
    { s.write (.connected s.bench.handles.length kind s.bench.hub.nextId) with
      bench := s.bench.connect kind none }
  else s

/-- Do something with a hub, where firing a signal is done by `fire`. -/
def attempt (fire : Signal → Action Rig Unit) : Errand → Action Rig Unit
  | .deed (.connect kind) => Action.modify (connect kind)
  | .deed (.block index isBlocked) =>
    Action.modify (handling index (fun _ _ => .blocked index isBlocked) (.block index isBlocked))
  | .deed (.disconnect index) =>
    Action.modify (handling index (fun _ _ => .disconnected index) (.disconnect index))
  | .deed (.emit signal) => fire signal
  | .detached kind => Action.modify fun s => { s with bench := s.bench.connectNothing kind }
  | .drop index => Action.modify (handling index (fun _ _ => .disconnected index) (.drop index))
  | .look index => Action.modify (handling index
      (fun s c => .reported index (s.bench.hub.isConnected c) (s.bench.hub.isBlocked c)) id)

/-- Note that an emission starts. -/
def begin (signal : Signal) (s : Rig) : Rig :=
  { s.write (.began s.emissions signal) with emissions := s.emissions + 1 }

/-- Fire a signal, while the hub is there; listeners that are called do what the plan says about
everything that happened so far, and emissions nest at most so deep. -/
def fire (plan : List HubEvent → List Errand) : Nat → Signal → Action Rig Unit
  | 0, _ => pure ()
  | depth + 1, signal => do
    let s ← Action.get
    if s.bench.present then do
      Action.modify (begin signal)
      Hub.emit hubLens (fun index signal => do
        Action.modify (write (.called s.emissions index signal))
        let s' ← Action.get
        Action.each (attempt (fire plan depth)) (plan s'.log)) signal
    else pure ()

/-- What the owner of a hub does: what anyone can do, and dropping the hub. -/
def own (plan : List HubEvent → List Errand) (depth : Nat) : Option Errand → Action Rig Unit
  | some errand => attempt (fire plan depth) errand
  | none => Action.modify fun s => { s.write .closed with bench := s.bench.dropHub }

end Rig

/-! ### Passages of a log -/

namespace HubEvent

variable {during : Option Nat} {first mid next e index : Nat} {signal : Signal}
  {before new new' : List HubEvent} {event : HubEvent}

private theorem calls_append : calls e (new ++ new') = calls e new ++ calls e new' :=
  List.filterMap_append

private theorem calls_eq_nil_iff :
    calls e new = [] ↔ ∀ index signal, .called e index signal ∉ new := by
  rw [calls, List.filterMap_eq_nil_iff]
  constructor
  · intro h index signal hmem
    simpa using h _ hmem
  · intro h event hmem
    cases event with
    | called e' index signal =>
      refine if_neg ?_
      rintro rfl
      exact h index signal hmem
    | _ => rfl

end HubEvent

/-- What a handle says about its listener is what was told. -/
def Told.Reports (t : Told) (index : Nat) (connected blocked : Bool) : Prop :=
  (connected = true ↔ t.Live index) ∧ (blocked = true ↔ t.Live index ∧ t.blocked index = true)

/-- A stretch of a log behind what was logged `before`: emissions are numbered from `first` on and
below `next`, and `during` is one that is still going on and started before. -/
structure Passage (during : Option Nat) (first : Nat) (before new : List HubEvent) (next : Nat) :
    Prop where
  le : first ≤ next
  began : ∀ e signal, .began e signal ∈ new → first ≤ e ∧ e < next
  /-- Only emissions that started call. -/
  called : ∀ e index signal, .called e index signal ∈ new →
    during = some e ∨ ∃ signal', .began e signal' ∈ new
  /-- Handles report what was told. -/
  reported : ∀ front index connected blocked rest,
    new = front ++ .reported index connected blocked :: rest →
    (told (before ++ front)).Reports index connected blocked
  /-- An emission starts once and calls its receivers. -/
  snapshot : ∀ front e signal rest, new = front ++ .began e signal :: rest →
    (∀ signal', .began e signal' ∉ front ++ rest) ∧ calls e front = [] ∧
      calls e rest = ((told (before ++ front)).receivers signal).map fun index => (index, signal)

namespace Passage

variable {during : Option Nat} {first mid next e index : Nat} {signal : Signal}
  {before new new' : List HubEvent} {event : HubEvent}

/-- Where two stretches are taken apart at an event, it is in one of them. -/
private theorem split_append {α : Type} {l l' front rest : List α} {x : α}
    (h : l ++ l' = front ++ x :: rest) :
    (∃ rest', l = front ++ x :: rest' ∧ rest = rest' ++ l') ∨
      ∃ front', front = l ++ front' ∧ l' = front' ++ x :: rest := by
  obtain ⟨front', rfl, rfl⟩ | ⟨rest', rfl, hrest⟩ := List.append_eq_append_iff.mp h
  · exact .inr ⟨front', rfl, rfl⟩
  · cases rest' with
    | nil => exact .inr ⟨[], by simp, hrest.symm⟩
    | cons y rest' =>
      obtain ⟨rfl, rfl⟩ := List.cons.inj hrest
      exact .inl ⟨rest', rfl, rfl⟩

private theorem eq_of_single {α : Type} {front rest : List α} {x y : α}
    (h : [x] = front ++ y :: rest) : front = [] ∧ x = y := by
  cases front with
  | nil => exact ⟨rfl, (List.cons.inj h).1⟩
  | cons z front => simp at h

private theorem nil : Passage during first before [] first :=
  ⟨Nat.le_refl _, nofun, nofun, fun _ _ _ _ _ h => by simp at h, fun _ _ _ _ h => by simp at h⟩

/-- One event that starts no emission. -/
private theorem single (hbegan : ∀ e signal, event ≠ .began e signal)
    (hcalled : ∀ e index signal, event = .called e index signal → during = some e)
    (hreported : ∀ index connected blocked, event = .reported index connected blocked →
      (told before).Reports index connected blocked) :
    Passage during first before [event] first := by
  refine ⟨Nat.le_refl _, fun e signal hmem => ?_, fun e index signal hmem => ?_,
    fun front index connected blocked rest h => ?_, fun front e signal rest h => ?_⟩
  · exact absurd (List.mem_singleton.mp hmem).symm (hbegan e signal)
  · exact .inl (hcalled e index signal (List.mem_singleton.mp hmem).symm)
  · obtain ⟨rfl, heq⟩ := eq_of_single h
    simpa using hreported index connected blocked heq
  · exact absurd (eq_of_single h).2 (hbegan e signal)

/-- The calls of an emission are in no stretch that it has nothing to do with. -/
private theorem calls_eq_nil (h : Passage during first before new next) (hduring : during ≠ some e)
    (hout : e < first ∨ next ≤ e) : calls e new = [] := by
  refine calls_eq_nil_iff.mpr fun index signal hmem => ?_
  obtain hd | ⟨signal', hbegan⟩ := h.called e index signal hmem
  · exact hduring hd
  · have hbounds := h.began e signal' hbegan
    omega

/-- What happens without regard to an emission also happens during it. -/
private theorem meanwhile (h : Passage none first before new next) :
    Passage during first before new next :=
  ⟨h.le, h.began,
    fun e index signal hmem => .inr ((h.called e index signal hmem).resolve_left nofun),
    h.reported, h.snapshot⟩

/-- One stretch behind another. -/
theorem append (h : Passage during first before new mid)
    (h' : Passage during mid (before ++ new) new' next)
    (hduring : ∀ e, during = some e → e < first) :
    Passage during first before (new ++ new') next := by
  have hle := h.le
  have hle' := h'.le
  refine ⟨Nat.le_trans hle hle', fun e signal hmem => ?_, fun e index signal hmem => ?_,
    fun front index connected blocked rest hsplit => ?_, fun front e signal rest hsplit => ?_⟩
  · obtain hmem | hmem := List.mem_append.mp hmem
    · have hbounds := h.began e signal hmem
      omega
    · have hbounds := h'.began e signal hmem
      omega
  · obtain hmem | hmem := List.mem_append.mp hmem
    · exact (h.called e index signal hmem).imp_right fun ⟨s, hs⟩ => ⟨s, List.mem_append_left _ hs⟩
    · exact (h'.called e index signal hmem).imp_right fun ⟨s, hs⟩ => ⟨s, List.mem_append_right _ hs⟩
  · obtain ⟨rest', hnew, -⟩ | ⟨front', rfl, hnew⟩ := split_append hsplit
    · exact h.reported front index connected blocked rest' hnew
    · rw [← List.append_assoc]
      exact h'.reported front' index connected blocked rest hnew
  · obtain ⟨rest', hnew, rfl⟩ | ⟨front', rfl, hnew⟩ := split_append hsplit
    · -- what comes later has greater numbers
      have hbounds := h.began e signal (hnew ▸ by simp)
      obtain ⟨honce, hfront, hcalls⟩ := h.snapshot front e signal rest' hnew
      have hlater := h'.calls_eq_nil (e := e)
        (fun hd => by have hlt := hduring e hd; omega) (.inl hbounds.2)
      refine ⟨fun signal' hmem => ?_, hfront, by rw [calls_append, hlater, List.append_nil, hcalls]⟩
      rw [← List.append_assoc] at hmem
      obtain hmem | hmem := List.mem_append.mp hmem
      · exact honce signal' hmem
      · have hbounds' := h'.began e signal' hmem
        omega
    · -- what came earlier has smaller numbers
      have hbounds := h'.began e signal (hnew ▸ by simp)
      obtain ⟨honce, hfront, hcalls⟩ := h'.snapshot front' e signal rest hnew
      have hearlier := h.calls_eq_nil (e := e)
        (fun hd => by have hlt := hduring e hd; omega) (.inr hbounds.1)
      refine ⟨fun signal' hmem => ?_, by rw [calls_append, hearlier, hfront, List.append_nil], ?_⟩
      · rw [List.append_assoc] at hmem
        obtain hmem | hmem := List.mem_append.mp hmem
        · have hbounds' := h.began e signal' hmem
          omega
        · exact honce signal' hmem
      · rw [← List.append_assoc]
        exact hcalls

/-- An emission is one stretch, once all its receivers were called. -/
private theorem enclose (h : Passage (some e) (e + 1) (before ++ [.began e signal]) new next)
    (hcalls : calls e new =
      ((told before).receivers signal).map fun index => (index, signal)) :
    Passage none e before (.began e signal :: new) next := by
  have hle := h.le
  refine ⟨by omega, fun e' signal' hmem => ?_, fun e' index signal' hmem => ?_,
    fun front index connected blocked rest hsplit => ?_, fun front e' signal' rest hsplit => ?_⟩
  · obtain heq | hmem := List.mem_cons.mp hmem
    · obtain ⟨rfl, -⟩ := HubEvent.began.inj heq
      omega
    · have hbounds := h.began e' signal' hmem
      omega
  · obtain heq | hmem := List.mem_cons.mp hmem
    · cases heq
    · obtain hd | ⟨s, hs⟩ := h.called e' index signal' hmem
      · obtain rfl := Option.some.inj hd
        exact .inr ⟨signal, List.mem_cons_self⟩
      · exact .inr ⟨s, List.mem_cons_of_mem _ hs⟩
  · cases front with
    | nil => cases hsplit
    | cons event front =>
      obtain ⟨rfl, hnew⟩ := List.cons.inj hsplit
      have hreported := h.reported front index connected blocked rest hnew
      rwa [List.append_assoc] at hreported
  · cases front with
    | nil =>
      obtain ⟨heq, rfl⟩ := List.cons.inj hsplit
      obtain ⟨rfl, rfl⟩ := HubEvent.began.inj heq
      refine ⟨fun s hs => ?_, rfl, by simpa using hcalls⟩
      have hbounds := h.began e s hs
      omega
    | cons event front =>
      obtain ⟨rfl, hnew⟩ := List.cons.inj hsplit
      have hbounds := h.began e' signal' (hnew ▸ by simp)
      obtain ⟨honce, hfront, hcalls'⟩ := h.snapshot front e' signal' rest hnew
      refine ⟨fun s hs => ?_, hfront, ?_⟩
      · obtain heq | hs := List.mem_cons.mp hs
        · obtain ⟨rfl, -⟩ := HubEvent.began.inj heq
          omega
        · exact honce s hs
      · rw [List.append_assoc] at hcalls'
        exact hcalls'

end Passage

/-! ### Running -/

namespace Rig

/-- A stretch of the log leads from one hub to another, which again is as its log says. -/
structure Leads (during : Option Nat) (s s' : Rig) (new : List HubEvent) : Prop where
  log : s'.log = s.log ++ new
  keeps : (told s'.log).Keeps s'.bench
  passage : Passage during s.emissions s.log new s'.emissions

/-- A hub that is what its log says. -/
def Kept (s : Rig) : Prop := (told s.log).Keeps s.bench

variable {during : Option Nat} {s s' s'' : Rig} {new new' : List HubEvent} {event : HubEvent}
  {plan : List HubEvent → List Errand} {signal : Signal} {depth e : Nat}

private theorem Leads.refl (h : s.Kept) : Leads during s s [] := ⟨by simp, h, .nil⟩

private theorem Leads.append (h : Leads during s s' new) (h' : Leads during s' s'' new')
    (hduring : ∀ e, during = some e → e < s.emissions) : Leads during s s'' (new ++ new') where
  log := by rw [h'.log, h.log, List.append_assoc]
  keeps := h'.keeps
  passage := h.passage.append (h.log ▸ h'.passage) hduring

/-- One event that starts no emission. -/
private theorem leads_single (hlog : s'.log = s.log ++ [event])
    (hemissions : s'.emissions = s.emissions)
    (hkeeps : ((told s.log).tell event).Keeps s'.bench)
    (hpassage : Passage during s.emissions s.log [event] s.emissions) :
    Leads during s s' [event] :=
  ⟨hlog, by rw [hlog, told_concat]; exact hkeeps, hemissions ▸ hpassage⟩

/-- Something is done with the hub, if anything. -/
def Goes (s s' : Rig) : Prop := ∃ new, Leads none s s' new

/-- A handle that is used. -/
private theorem goes_handling {index : Nat} {event : Rig → Connection → HubEvent}
    {f : HubBench → HubBench} (h : s.Kept)
    (hkeeps : ∀ c, s.bench.handle? index = some c →
      ((told s.log).tell (event s c)).Keeps (f s.bench))
    (hpassage : ∀ c, s.bench.handle? index = some c →
      Passage none s.emissions s.log [event s c] s.emissions) :
    s.Goes (handling index event f s) := by
  unfold handling
  split
  · exact ⟨[], .refl h⟩
  · rename_i c hc
    exact ⟨[event s c], leads_single rfl rfl (hkeeps c hc) (hpassage c hc)⟩

/-- An event that is about registrations. -/
private theorem passage_registering {first : Nat} {before : List HubEvent}
    (hbegan : ∀ e signal, event ≠ .began e signal)
    (hcalled : ∀ e index signal, event ≠ .called e index signal)
    (hreported : ∀ index connected blocked, event ≠ .reported index connected blocked) :
    Passage during first before [event] first :=
  .single hbegan (fun e index signal heq => absurd heq (hcalled e index signal))
    fun index connected blocked heq => absurd heq (hreported index connected blocked)

/-- **Whatever is done with a hub**, it stays what its log says. -/
theorem gives_attempt {fire : Signal → Action Rig Unit}
    (hfire : ∀ signal s, Kept s → (fire signal).Gives s fun _ s' => s.Goes s') (errand : Errand)
    (h : s.Kept) : (attempt fire errand).Gives s fun _ s' => s.Goes s' := by
  rcases errand with (index | ⟨index, isBlocked⟩ | kind | signal) | kind | index | index
  · refine (Action.gives_modify _).mpr (goes_handling h (fun c hc => h.disconnect hc) fun c _ => ?_)
    exact passage_registering nofun nofun nofun
  · refine (Action.gives_modify _).mpr (goes_handling h (fun c hc => h.block hc isBlocked)
      fun c _ => ?_)
    exact passage_registering nofun nofun nofun
  · refine (Action.gives_modify _).mpr ?_
    unfold connect
    split
    · rename_i hpresent
      exact ⟨_, leads_single rfl rfl (h.connect hpresent kind none)
        (passage_registering nofun nofun nofun)⟩
    · exact ⟨[], .refl h⟩
  · exact hfire signal s h
  · exact (Action.gives_modify _).mpr ⟨[], by simp, h.connectNothing kind, .nil⟩
  · refine (Action.gives_modify _).mpr (goes_handling h (fun c hc => h.drop hc) fun c _ => ?_)
    exact passage_registering nofun nofun nofun
  · refine (Action.gives_modify _).mpr (goes_handling h (fun c _ => h) fun c hc => ?_)
    refine .single nofun nofun ?_
    rintro _ _ _ ⟨⟩
    exact ⟨h.isConnected_iff hc, h.isBlocked_iff hc⟩

/-- Errands are run one after another, also behind one that failed. -/
private theorem gives_each_attempt {fire : Signal → Action Rig Unit}
    (hfire : ∀ signal s, Kept s → (fire signal).Gives s fun _ s' => s.Goes s')
    (errands : List Errand) (h : s.Kept) :
    (Action.each (attempt fire) errands).Gives s fun _ s' => s.Goes s' := by
  refine Action.gives_each (p := s.Goes) (fun errand _ s₁ hs₁ => ?_) ⟨[], .refl h⟩
  obtain ⟨new, hleads⟩ := hs₁
  refine (gives_attempt hfire errand hleads.keeps).mono fun _ s₂ ⟨new', hleads'⟩ => ?_
  exact ⟨_, hleads.append hleads' nofun⟩

/-- **An emission calls each of its receivers once**, whatever these do. -/
theorem gives_each_call {call : Signal → Action Rig Unit}
    (hcall : ∀ signal s, Kept s → (call signal).Gives s fun _ s' => s.Goes s')
    (indices : List Nat) (h : s.Kept) (he : e < s.emissions) :
    (Action.each (fun index => do
      Action.modify (write (.called e index signal))
      let s' ← Action.get
      Action.each (attempt call) (plan s'.log)) indices).Gives s fun _ s' => ∃ new,
        Leads (some e) s s' new ∧ calls e new = indices.map fun index => (index, signal) := by
  induction indices generalizing s with
  | nil => exact (Action.gives_pure _).mpr ⟨[], .refl h, rfl⟩
  | cons index indices ih =>
    have hduring : ∀ e', some e = some e' → e' < s.emissions := fun e' heq =>
      Option.some.inj heq ▸ he
    have hcalled :
        Leads (some e) s (s.write (.called e index signal)) [.called e index signal] := by
      refine leads_single rfl rfl h (.single nofun (fun e' index' signal' heq => ?_) nofun)
      rw [(HubEvent.called.inj heq).1]
    simp only [Action.each_cons, Action.gives_bind, Action.gives_modify, Action.gives_get]
    refine (gives_each_attempt hcall _ hcalled.keeps).mono ?_
    rintro _ s₁ ⟨new, hmeanwhile⟩
    -- the emissions that are started meanwhile have numbers of their own
    have hquiet : calls e new = [] :=
      hmeanwhile.passage.calls_eq_nil (Option.some_ne_none e).symm (.inl he)
    have hpassed : Leads (some e) s s₁ (.called e index signal :: new) :=
      hcalled.append ⟨hmeanwhile.log, hmeanwhile.keeps, hmeanwhile.passage.meanwhile⟩ hduring
    have he₁ : e < s₁.emissions := Nat.lt_of_lt_of_le he hpassed.passage.le
    refine (ih hpassed.keeps he₁).mono ?_
    rintro _ s₂ ⟨new', hrest, hcalls⟩
    refine ⟨_, hpassed.append hrest hduring, ?_⟩
    rw [calls_append, hcalls, List.map_cons, ← List.singleton_append, calls_append, hquiet]
    simp [calls]

/-- **An emission is a snapshot**, and so are those that are started meanwhile. -/
theorem gives_fire (plan : List HubEvent → List Errand) (depth : Nat) (signal : Signal) (s : Rig)
    (h : s.Kept) : (fire plan depth signal).Gives s fun _ s' => s.Goes s' := by
  -- an emission that a receiver starts has one level less, whatever its signal
  induction depth generalizing signal s with
  | zero => exact (Action.gives_pure _).mpr ⟨[], .refl h⟩
  | succ depth ih =>
    simp only [fire, Action.gives_bind, Action.gives_get]
    split
    · have hbegan : (s.begin signal).Kept := by
        change (told (s.log ++ [_])).Keeps s.bench
        rw [told_concat]
        exact h
      have hreceivers : (hubLens.get (s.begin signal)).receivers signal =
          (told s.log).receivers signal := h.receivers signal
      simp only [Hub.emit, Action.gives_bind, Action.gives_modify, Action.gives_get,
        Action.gives_note]
      rw [hreceivers]
      refine (gives_each_call ih _ hbegan (Nat.lt_succ_self s.emissions)).mono ?_
      rintro _ s' ⟨new, hleads, hcalls⟩
      refine ⟨.began s.emissions signal :: new, ?_, hleads.keeps, hleads.passage.enclose hcalls⟩
      rw [hleads.log]
      exact List.append_assoc ..
    · exact (Action.gives_pure _).mpr ⟨[], .refl h⟩

/-- Dropping the hub is one of the things that its owner can do. -/
private theorem gives_own (plan : List HubEvent → List Errand) (depth : Nat)
    (errand : Option Errand)
    (h : s.Kept) : (own plan depth errand).Gives s fun _ s' => s.Goes s' := by
  cases errand with
  | none =>
    exact (Action.gives_modify _).mpr ⟨_, leads_single rfl rfl h.dropHub
      (passage_registering nofun nofun nofun)⟩
  | some errand => exact gives_attempt (gives_fire plan depth) errand h

/-- Every emission calls its snapshot of listeners, and every handle reports the truth about its
own. -/
structure Faithful (s : Rig) : Prop where
  /-- Every emission calls those who were to be called when it started, once each and in order of
  registration, and no call of it stands in front of its start. -/
  snapshot : ∀ before e signal after, s.log = before ++ .began e signal :: after →
    (∀ signal', .began e signal' ∉ before ++ after) ∧ calls e before = [] ∧
      calls e after = ((told before).receivers signal).map fun index => (index, signal)
  /-- Only emissions that started call. -/
  called : ∀ e index signal, .called e index signal ∈ s.log →
    ∃ signal', .began e signal' ∈ s.log
  /-- Handles reported what was told about their own listeners. -/
  reported : ∀ before index connected blocked after,
    s.log = before ++ .reported index connected blocked :: after →
    (told before).Reports index connected blocked
  /-- They still do. -/
  reports : ∀ index c, s.bench.handle? index = some c →
    (told s.log).Reports index (s.bench.hub.isConnected c) (s.bench.hub.isBlocked c)
  /-- No number of a slot is used twice. -/
  ids : (told s.log).registrations.Pairwise fun r r' => r.id < r'.id
  /-- A handle takes away, and changes, the slot of its own listener. -/
  own : ∀ index c, s.bench.handle? index = some c →
    (s.bench.hub.disconnect c).slots =
        s.bench.hub.slots.filter (fun slot => slot.listener != index) ∧
      ∀ isBlocked, (s.bench.hub.setBlocked c isBlocked).slots = s.bench.hub.slots.map fun slot =>
        if slot.listener = index then { slot with blocked := isBlocked } else slot
  /-- What has no slot, has none to take away or to change. -/
  inert : ∀ c, s.bench.hub.isConnected c = false → s.bench.hub.disconnect c = s.bench.hub ∧
    ∀ isBlocked, s.bench.hub.setBlocked c isBlocked = s.bench.hub
  /-- And it reports nothing: a handle that is detached or disconnected, or whose hub is gone. -/
  dead : ∀ c, (c.linked = false ∨ s.bench.present = false) →
    s.bench.hub.isConnected c = false ∧ s.bench.hub.isBlocked c = false

/-- **Each emission is a snapshot, and each handle speaks of its own listener only**: whatever the
owner of a hub does, whatever the listeners do when they are called, however deep emissions nest. -/
theorem faithful_of_errands (plan : List HubEvent → List Errand) (depth : Nat)
    (errands : List (Option Errand)) :
    (Action.each (own plan depth) errands).Gives empty fun _ s => s.Faithful := by
  have hempty : empty.Kept := Told.keeps_nothing
  refine (Action.gives_each (p := empty.Goes) (fun errand _ s hs => ?_) ⟨[], .refl hempty⟩).mono ?_
  · obtain ⟨new, hleads⟩ := hs
    refine (gives_own plan depth errand hleads.keeps).mono fun _ s' ⟨new', hleads'⟩ => ?_
    exact ⟨_, hleads.append hleads' nofun⟩
  · rintro _ s ⟨new, hlog, hkeeps, hpassage⟩
    obtain rfl : s.log = new := hlog
    refine ⟨hpassage.snapshot, fun e index signal hmem => ?_, hpassage.reported,
      fun index c hc => ⟨hkeeps.isConnected_iff hc, hkeeps.isBlocked_iff hc⟩, hkeeps.ids,
      fun index c hc => ⟨hkeeps.slots_disconnect hc, hkeeps.slots_setBlocked hc⟩,
      fun c => Hub.inert_of_not_isConnected,
      fun c hc => Hub.reports_nothing (hc.imp_right hkeeps.slots_eq_nil)⟩
    exact (hpassage.called e index signal hmem).resolve_left nofun

/-- A listener that is called first disconnects the second, connects a third and fires once more:
the second is not called by what it fires, but still by the emission that was going on. -/
example :
    let signal := .rowExpanded 0
    let plan := fun log : List HubEvent => if log.getLast? = some (.called 0 0 signal) then
      [.deed (.disconnect 1), .deed (.connect .rowExpanded), .deed (.emit signal)] else []
    let connect := some (.deed (.connect .rowExpanded))
    ((Action.each (own plan 2) [connect, connect, some (.deed (.emit signal)),
        some (.look 1)]).run empty).state.log =
      [.connected 0 .rowExpanded 0, .connected 1 .rowExpanded 1, .began 0 signal,
        .called 0 0 signal, .disconnected 1, .connected 2 .rowExpanded 2, .began 1 signal,
        .called 1 0 signal, .called 1 2 signal, .called 0 1 signal, .reported 1 false false] := by
  decide +kernel

end Rig

end UndoJournal
