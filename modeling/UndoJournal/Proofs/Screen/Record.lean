import UndoJournal.Proofs.Screen.Gestures
import UndoJournal.Proofs.Screen.Push

/-!
# What a push leaves in the record

The record of the traffic tells signals that were fired during a view call from those that were
not. The latter are **unprompted** (`Traffic.unprompted`): only a user sets them off.

A push fires its signals in the middle of its calls. So whatever it is told, and however it ends,
**a push adds nothing unprompted to the record** (`Screen.keeps_account`), and the guard that it
takes is let go of again (`Screen.framed_follow`). All that it asks of the view meanwhile is done
under that guard and those that there were (`Screen.kept_performAll`).
-/

namespace UndoJournal

/-- The signal that was fired, if it was and no view call was going on. -/
def ViewCall.unprompted? : ViewCall → Option Signal
  | .fired signal false => some signal
  | _ => none

/-- The signals that were fired while no view call was going on, oldest first. -/
def Traffic.unprompted (t : Traffic) : List Signal := t.calls.filterMap ViewCall.unprompted?

namespace Traffic

private theorem unprompted_write (t : Traffic) (call : ViewCall) :
    (t.write call).unprompted = t.unprompted ++ call.unprompted?.toList := by
  rw [unprompted, write, List.filterMap_append]
  cases h : call.unprompted? <;> simp [unprompted, h]

/-- A command is no signal. -/
private theorem unprompted_write_call (t : Traffic) (command : ViewCommand) :
    (t.write command.call).unprompted = t.unprompted := by
  rw [unprompted_write]
  cases command <;> exact List.append_nil _

/-- A signal that is fired during a view call is not unprompted. -/
theorem unprompted_overhear (t : Traffic) (signal : Signal) :
    (t.overhear signal).unprompted = t.unprompted ++ if t.inCall then [] else [signal] := by
  rw [overhear, unprompted_write]
  cases t.inCall <;> rfl

end Traffic

namespace Screen

/-- As far as there is a record, the number of view calls that are going on and the signals that
were fired while there was none. -/
def account (s : Screen) : Option (Nat × List Signal) :=
  s.traffic.map fun t => (t.ongoing, t.unprompted)

variable {s : Screen} {c : Option (Nat × List Signal)}

/-- The account when one more view call is going on. -/
def oneMore (c : Option (Nat × List Signal)) : Option (Nat × List Signal) :=
  c.map fun p => (p.1 + 1, p.2)

theorem account_onTraffic {f : Traffic → Traffic} (hongoing : ∀ t, (f t).ongoing = t.ongoing)
    (hcalls : ∀ t, (f t).unprompted = t.unprompted) (s : Screen) :
    (Stage.onTraffic f s).account = s.account := by
  cases h : s.traffic <;> simp [account, Stage.onTraffic, h, hongoing, hcalls]

private theorem account_spend (op : ViewOp) (s : Screen) :
    (Stage.onTraffic (fun t => t.spend op) s).account = s.account :=
  account_onTraffic (fun t => by unfold Traffic.spend; split <;> rfl)
    (fun t => by unfold Traffic.spend; split <;> rfl) s

private theorem account_enter (s : Screen) :
    (Stage.onTraffic Traffic.enter s).account = oneMore s.account := by
  cases h : s.traffic <;>
    simp [account, oneMore, Stage.onTraffic, h, Traffic.enter, Traffic.unprompted]

private theorem account_leave (h : s.account = oneMore c) :
    (Stage.onTraffic Traffic.leave s).account = c := by
  rcases hs : s.traffic with _ | t <;> rcases c with _ | ⟨ongoing, signals⟩ <;>
    simp_all [account, oneMore, Stage.onTraffic, Traffic.leave, Traffic.unprompted]

/-- During a view call nothing is unprompted. -/
private theorem account_overhear (h : s.account = oneMore c) (signal : Signal) :
    (overhear signal s).account = oneMore c := by
  rw [← h]
  rcases hs : s.traffic with _ | t
  · simp [account, overhear, hs]
  · have hcall : t.inCall = true := by
      rcases c with _ | ⟨ongoing, signals⟩ <;>
        simp_all [account, oneMore, Traffic.inCall]
    simp only [account, overhear, hs, Option.map_some, Traffic.unprompted_overhear, hcall, if_true,
      List.append_nil]
    rfl

/-! ### Commands -/

/-- What a view fires during a view call is on no account. -/
private theorem agrees_account : Stage.alone.Agrees Stage.alone.respond (fun _ _ => True)
    fun s => s.account = oneMore c where
  overhear signal := Action.Keeps.modify fun _ hs => account_overhear hs signal
  respond _ := Action.Agree.pure ()
  outline _ _ hs _ := hs

private theorem keeps_account_perform (command : ViewCommand) :
    Action.Keeps (fun s => s.account = c) (Stage.alone.perform command) := by
  intro s hs
  have hasked : (s.asked command).account = c := by
    rw [asked, account_spend, account_onTraffic (f := fun t => t.write command.call)
      (fun _ => rfl) fun t => t.unprompted_write_call command]
    exact hs
  obtain ⟨-, hrun⟩ | ⟨-, hrun⟩ | ⟨-, hrun⟩ := s.run_perform_cases command <;>
    refine .of_run_eq hrun ?_
  -- a call that is made to go wrong does not reach the view
  · exact hasked
  · exact hasked
  · rw [asking, Action.leaves_bracket]
    have hperform := (agrees_account (c := c)).agree_perform command
      fun _ _ _ => trivial
    refine Action.Leaves.mono (hperform.keeps _ ?_) fun _ _ => account_leave
    exact (account_enter _).trans (congrArg oneMore hasked)

private theorem keeps_account_performAll (commands : List ViewCommand) :
    Action.Keeps (fun s => s.account = c) (Stage.alone.performAll commands) := by
  induction commands with
  | nil => exact Action.Keeps.pure _
  | cons command commands ih =>
    refine Action.Keeps.bind (keeps_account_perform command) fun answer => ?_
    rcases answer with e | ⟨⟩
    · exact Action.Keeps.pure _
    · exact ih

/-- All that commands do, they do under the guards that there are. -/
theorem kept_performAll (hs : s.Suppressed) (commands : List ViewCommand) :
    (Stage.alone.performAll commands).Leaves s fun _ s' => s.Kept s' := by
  induction commands generalizing s with
  | nil => exact Kept.refl s
  | cons command commands ih =>
    rw [Stage.performAll, Action.leaves_bind]
    refine (leaves_perform hs command).mono ?_
    rintro (fault | e | ⟨⟩) s₁ ⟨hkept, -⟩
    · exact hkept
    · exact hkept
    · have hs₁ : s₁.Suppressed := by
        rw [Suppressed, hkept.link]
        exact hs
      exact (ih hs₁).mono fun _ _ h => hkept.trans h

/-! ### Pushes -/

/-- The link is on no account. -/
private theorem keeps_account_link (f : Link → Link) :
    Action.Keeps (fun s => s.account = c) (Stage.alone.change (onLink f)) :=
  Action.Keeps.modify fun _ hs => hs

private theorem keeps_account_pushed (t : Timeline) (u : CursorUpdate) :
    Action.Keeps (fun s => s.account = c) (Stage.alone.pushed t u) := by
  have hrefresh : Action.Keeps (fun s => s.account = c) (Stage.alone.refresh t u) := by
    refine Action.Keeps.bind (fun s hs => hs) fun s => ?_
    split
    · refine Action.Keeps.bind (keeps_account_perform _) fun answer => ?_
      rcases answer with e | ⟨⟩
      · exact Action.Keeps.pure _
      · exact Action.Keeps.bind (keeps_account_link _) fun _ => Action.Keeps.pure _
    · exact Action.Keeps.pure _
  have hpush : Action.Keeps (fun s => s.account = c) (Stage.alone.push t u) := by
    refine Action.Keeps.bind hrefresh fun answer => ?_
    rcases answer with e | ⟨⟩
    · exact Action.Keeps.pure _
    · refine Action.Keeps.bind (fun s hs => hs) fun s => ?_
      exact Action.Keeps.bind (keeps_account_link _) fun _ => keeps_account_performAll _
  refine Action.Keeps.bind hpush fun answer => ?_
  rcases answer with e | ⟨⟩
  · exact Action.Keeps.bind (keeps_account_link _) fun _ => Action.Keeps.pure _
  · exact Action.Keeps.bind (Action.Keeps.report _) fun _ => Action.Keeps.pure _

/-- **Following an update adds nothing unprompted to the record**, however it ends, and leaves as
many view calls going on as there were. -/
theorem keeps_account (t : Timeline) (u : CursorUpdate) :
    Action.Keeps (fun s => s.account = c) (Stage.alone.follow t u) := by
  refine Action.Keeps.bind (fun s hs => hs) fun s => ?_
  split
  · exact Action.Keeps.pure _
  · split
    · exact Action.Keeps.bind (keeps_account_link _) fun _ =>
        Action.Keeps.bind (Action.Keeps.report _) fun _ => Action.Keeps.pure _
    · exact fun s hs => keeps_account_pushed t u (s.onLink Link.raise) hs

end Screen

end UndoJournal
