import PooledPackets.Proofs.Contracts
import PooledPackets.Session

/-!
# Contracts of session steps

What is known of a session step once it has run from some session: one
property for the value and the session that it leaves, and one for the reason
where the run stops.
-/

namespace PooledPackets.SessionStep

variable {α β : Type}

/-- What holds at the end of a step. -/
def Satisfies (step : SessionStep α) (session : Session)
    (done : α → Session → Prop) (stopped : Stop → Prop) : Prop :=
  match step session with
  | .ok (value, after) => done value after
  | .error stop => stopped stop

variable {step : SessionStep α} {next : α → SessionStep β}
variable {session : Session} {done done' : α → Session → Prop}
variable {doneNext : β → Session → Prop} {stopped stopped' : Stop → Prop}

namespace Satisfies

theorem mono (contract : Satisfies step session done stopped)
    (doneWeaker : ∀ value after, done value after → done' value after)
    (stoppedWeaker : ∀ stop, stopped stop → stopped' stop) :
    Satisfies step session done' stopped' := by
  unfold Satisfies at *
  split
  · rename_i value after ending
    rw [ending] at contract
    exact doneWeaker value after contract
  · rename_i stop ending
    rw [ending] at contract
    exact stoppedWeaker stop contract

theorem monoDone (contract : Satisfies step session done stopped)
    (doneWeaker : ∀ value after, done value after → done' value after) :
    Satisfies step session done' stopped :=
  contract.mono doneWeaker (fun _ known => known)

/-- Two contracts of one step hold together. -/
theorem and (contract : Satisfies step session done stopped)
    (other : Satisfies step session done' stopped') :
    Satisfies step session
      (fun value after => done value after ∧ done' value after)
      stopped := by
  unfold Satisfies at *
  split
  · rename_i value after ending
    rw [ending] at contract other
    exact ⟨contract, other⟩
  · rename_i stop ending
    rw [ending] at contract
    exact contract

theorem of_ok (contract : Satisfies step session done stopped)
    {value : α} {after : Session}
    (ran : step session = .ok (value, after)) : done value after := by
  unfold Satisfies at contract
  rw [ran] at contract
  exact contract

theorem of_error (contract : Satisfies step session done stopped)
    {stop : Stop} (ran : step session = .error stop) : stopped stop := by
  unfold Satisfies at contract
  rw [ran] at contract
  exact contract

/-- A step that nothing can stop is carried out. -/
theorem exists_ok
    (contract : Satisfies step session done (fun _ => False)) :
    ∃ result, step session = .ok result := by
  unfold Satisfies at contract
  split at contract
  · rename_i value after ran
    exact ⟨(value, after), ran⟩
  · exact contract.elim

theorem bind (first : Satisfies step session done stopped)
    (second : ∀ value after, done value after →
      Satisfies (next value) after doneNext stopped) :
    Satisfies (step >>= next) session doneNext stopped := by
  have together : (step >>= next) session =
      match step session with
      | .ok (value, after) => next value after
      | .error stop => .error stop := by
    change Except.bind (step session) _ = _
    cases step session <;> rfl
  unfold Satisfies at *
  rw [together]
  cases ending : step session with
  | ok result =>
      rw [ending] at first
      exact second result.1 result.2 first
  | error stop =>
      rw [ending] at first
      exact first

/-- A step that cannot be done stops the run. -/
theorem exists_error
    (contract : Satisfies step session (fun _ _ => False) stopped) :
    ∃ stop, step session = .error stop ∧ stopped stop := by
  unfold Satisfies at contract
  split at contract
  · exact contract.elim
  · rename_i stop ran
    exact ⟨stop, ran, contract⟩

theorem pure {value : α} (holds : done value session) :
    Satisfies (Pure.pure value) session done stopped :=
  holds

theorem trivially :
    Satisfies step session (fun _ _ => True) (fun _ => True) := by
  unfold Satisfies
  split
  · trivial
  · trivial

/-- A value that is given in place of a step's own changes nothing about the
session. -/
theorem giving {kept : Session → Prop} {reply : α → β}
    (contract : Satisfies step session (fun _ after => kept after) stopped) :
    Satisfies (step >>= fun value => Pure.pure (reply value)) session
      (fun _ after => kept after) stopped :=
  bind contract fun _ _ holds => holds

theorem get {next : Session → SessionStep α}
    (goesOn : Satisfies (next session) session done stopped) :
    Satisfies (MonadState.get >>= next) session done stopped :=
  goesOn

theorem changing {change : Session → Session}
    {next : PUnit → SessionStep α}
    (goesOn : Satisfies (next ⟨⟩) (change session) done stopped) :
    Satisfies (modify change >>= next) session done stopped :=
  goesOn

theorem ite {condition : Prop} [Decidable condition]
    {yes no : SessionStep α}
    (ifTrue : condition → Satisfies yes session done stopped)
    (ifFalse : ¬condition → Satisfies no session done stopped) :
    Satisfies (if condition then yes else no) session done stopped := by
  by_cases holds : condition
  · rw [if_pos holds]
    exact ifTrue holds
  · rw [if_neg holds]
    exact ifFalse holds

end Satisfies

/-- What goes on with the end of a step goes on from where the step is done, or
the step has stopped. -/
theorem run_bind (step : SessionStep α) (session : Session)
    (next : α × Session → Except Stop β) :
    (∃ result, step session = .ok result ∧
      (step.run session >>= next) = next result) ∨
    ∃ stop, step session = .error stop ∧
      (step.run session >>= next) = .error stop := by
  change (∃ result, _ ∧ Except.bind (step session) next = _) ∨
    ∃ stop, _ ∧ Except.bind (step session) next = _
  cases step session with
  | ok result => exact Or.inl ⟨result, rfl, rfl⟩
  | error stop => exact Or.inr ⟨stop, rfl, rfl⟩

end PooledPackets.SessionStep

namespace PooledPackets.Session

/-- A command that would change a lent packet leaves the session as it is; any
other is carried out. -/
theorem step_satisfies {command : Command} {session : Session}
    {done : Reply → Session → Prop} {stopped : Stop → Prop}
    (isLent : session.lends command = true → done .lent session)
    (isFree : session.lends command = false →
      SessionStep.Satisfies (carryOut command) session done stopped) :
    SessionStep.Satisfies (fun session => session.step command) session done
      stopped := by
  cases lends : session.lends command with
  | true => simpa [SessionStep.Satisfies, step, lends] using isLent lends
  | false => simpa [SessionStep.Satisfies, step, lends] using isFree lends

/-- What a command keeps when it is carried out is kept by its step. -/
theorem step_keeps {command : Command} {session : Session}
    {kept : Session → Prop} {stopped : Stop → Prop} (holds : kept session)
    (contract : SessionStep.Satisfies (carryOut command) session
      (fun _ after => kept after) stopped) :
    SessionStep.Satisfies (fun session => session.step command) session
      (fun _ after => kept after) stopped :=
  step_satisfies (fun _ => holds) (fun _ => contract)

theorem step_of_free {command : Command} {session : Session}
    (isFree : session.lends command = false) :
    session.step command = carryOut command session := by
  simp [step, isFree]

/-- A command that changes no packet in a slot is carried out whatever is
lent. -/
theorem lends_of_still {command : Command} (session : Session)
    (still : ∀ slot, command.changes slot = false) :
    session.lends command = false := by
  simp [lends, still]

/-- A command whose step stops the run has been carried out. -/
theorem carryOut_of_step_error {command : Command} {session : Session}
    {stop : Stop} (stopped : session.step command = .error stop) :
    carryOut command session = .error stop := by
  unfold step at stopped
  split at stopped
  · cases stopped
  · exact stopped

/-- A step that was answered was refused because something is lent, or its
command has been carried out. -/
theorem cases_of_step_ok {command : Command} {session after : Session}
    {reply : Reply} (stepped : session.step command = .ok (reply, after)) :
    (reply = .lent ∧ after = session) ∨
      carryOut command session = .ok (reply, after) := by
  unfold step at stepped
  split at stepped
  · cases stepped
    exact Or.inl ⟨rfl, rfl⟩
  · exact Or.inr stepped

/-- What every step of a run keeps holds at the end of the run. -/
theorem runAll_keeps {kept : Session → Prop} {allowed : Command → Prop}
    (keeps : ∀ {command : Command} {session after : Session} {reply : Reply},
      allowed command → kept session →
        session.step command = .ok (reply, after) → kept after) :
    ∀ {commands : List Command} {session after : Session}, kept session →
      (∀ command ∈ commands, allowed command) →
      session.runAll commands = .ok after → kept after
  | [], _, _, holds, _, ran => by
      cases ran
      exact holds
  | command :: rest, session, after, holds, areAllowed, ran => by
      simp only [runAll] at ran
      cases stepped : session.step command with
      | error stop => simp [stepped] at ran
      | ok result =>
          simp only [stepped] at ran
          have isAllowed := areAllowed command (List.mem_cons_self ..)
          exact runAll_keeps keeps (keeps isAllowed holds stepped)
            (fun other member => areAllowed other (.tail _ member)) ran

/-- A contract that every command has is one of whole runs. -/
theorem runAll_ends {kept : Session → Prop} {stopped : Stop → Prop}
    (contract : ∀ {command : Command} {session : Session}, kept session →
      SessionStep.Satisfies (carryOut command) session
        (fun _ after => kept after) stopped) :
    ∀ {commands : List Command} {session : Session}, kept session →
      match session.runAll commands with
      | .ok after => kept after
      | .error stop => stopped stop
  | [], _, holds => holds
  | command :: rest, session, holds => by
      simp only [runAll]
      cases stepped : session.step command with
      | error stop =>
          exact (step_keeps holds (contract holds)).of_error stepped
      | ok result =>
          have after := (step_keeps holds (contract holds)).of_ok stepped
          exact runAll_ends contract after

/-- Carries out commands and keeps something up to date beside the session. -/
def runBeside {κ : Type}
    (next : κ → Session → Command → Reply → Session → κ)
    (session : Session) (beside : κ) :
    List Command → Except Stop (Session × κ)
  | [] => .ok (session, beside)
  | command :: rest =>
      match session.step command with
      | .error stop => .error stop
      | .ok (reply, after) =>
          after.runBeside next (next beside session command reply after) rest

/-- Something can be kept up to date beside every run. -/
theorem exists_runBeside {κ : Type}
    (next : κ → Session → Command → Reply → Session → κ) :
    ∀ {commands : List Command} {session after : Session} (beside : κ),
      session.runAll commands = .ok after →
        ∃ last, session.runBeside next beside commands = .ok (after, last)
  | [], _, _, beside, ran => by
      cases ran
      exact ⟨beside, rfl⟩
  | command :: rest, session, after, beside, ran => by
      simp only [runAll] at ran
      simp only [runBeside]
      cases stepped : session.step command with
      | error stop => simp [stepped] at ran
      | ok result =>
          simp only [stepped] at ran
          exact exists_runBeside next _ ran

/-- What is kept beside a session does not change its run, and goes with the
session at the end if it does so after every step of a command that is
allowed. -/
theorem runBeside_keeps_allowed {κ : Type}
    {next : κ → Session → Command → Reply → Session → κ}
    {goesWith : κ → Session → Prop} {allowed : Command → Prop}
    (keeps : ∀ {command : Command} {session after : Session}
      {reply : Reply} {beside : κ}, allowed command →
      goesWith beside session →
      session.step command = .ok (reply, after) →
        goesWith (next beside session command reply after) after) :
    ∀ {commands : List Command} {session after : Session}
      {beside last : κ}, goesWith beside session →
      (∀ command ∈ commands, allowed command) →
      session.runBeside next beside commands = .ok (after, last) →
        goesWith last after ∧ session.runAll commands = .ok after
  | [], _, _, _, _, holds, _, ran => by
      cases ran
      exact ⟨holds, rfl⟩
  | command :: rest, session, after, beside, last, holds, areAllowed, ran => by
      simp only [runBeside] at ran
      simp only [runAll]
      cases stepped : session.step command with
      | error stop => simp [stepped] at ran
      | ok result =>
          simp only [stepped] at ran
          have isAllowed := areAllowed command (List.mem_cons_self ..)
          exact runBeside_keeps_allowed keeps (keeps isAllowed holds stepped)
            (fun other member => areAllowed other (.tail _ member)) ran

theorem runBeside_keeps {κ : Type}
    {next : κ → Session → Command → Reply → Session → κ}
    {goesWith : κ → Session → Prop}
    (keeps : ∀ {command : Command} {session after : Session}
      {reply : Reply} {beside : κ}, goesWith beside session →
      session.step command = .ok (reply, after) →
        goesWith (next beside session command reply after) after)
    {commands : List Command} {session after : Session}
    {beside last : κ} (holds : goesWith beside session)
    (ran : session.runBeside next beside commands = .ok (after, last)) :
    goesWith last after ∧ session.runAll commands = .ok after := by
  have allowed : ∀ command ∈ commands, True := fun _ _ => trivial
  exact runBeside_keeps_allowed (fun _ => keeps) holds allowed ran

end PooledPackets.Session
