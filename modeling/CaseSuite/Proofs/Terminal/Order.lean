import CaseSuite.Proofs.Terminal.Ledger

/-!
# Order on a terminal

`Orderly` says how a terminal, the calls that are under way on it and its ledger belong together:
the queue is what was sent and not yet taken, the count of pending tasks is exact until the worker
refuses further ones, the last result adds up what the completed tasks got, and rows that were
fetched are stored.  Every step of a caller and every step of the worker keeps a terminal in order.
-/

namespace CaseSuite
namespace Terminal

variable {σ : Type}

/-- The worker leaves, or is about to. -/
def Phase.isExit : Phase → Bool
  | .starting .shutdown | .closing | .crashing | .leaving | .sealing | .dropping | .gone => true
  | _ => false

/-- The worker refuses all further tasks. -/
def Phase.isSealed : Phase → Bool
  | .dropping | .gone => true
  | _ => false

/-- The worker has a fetch for the name in hand and its rows are not stored yet. -/
def Phase.isFetching (name : String) : Phase → Bool
  | .starting (.fetch other) | .fetching other | .storing other _ => other = name
  | _ => false

/-- How the ledger agrees with what the worker does, and with the last result until it leaves. -/
def Ledger.Standing (l : Ledger) (last : Verdict) : Phase → Prop
  | .arriving | .waiting => l.taken = l.tasks ∧ l.current = none ∧ last = l.verdict
  | .starting .shutdown | .closing | .crashing | .leaving | .sealing | .dropping | .gone =>
      l.deserted = true ∧ l.taken = l.tasks ∨ ∃ task, l.taken = l.tasks ++ [task]
  | .starting task => l.taken = l.tasks ++ [task] ∧ l.current = none ∧ last = l.verdict
  | .clearing query => l.taken = l.tasks ++ [.execute query] ∧ l.current = none
  | .executing query =>
      l.taken = l.tasks ++ [.execute query] ∧ l.current = none ∧ last = .success
  | .fetching name => l.taken = l.tasks ++ [.fetch name] ∧ l.current = none ∧ last = l.verdict
  | .storing name rows =>
      ∃ fetched, rows = rowsValue fetched ∧ l.taken = l.tasks ++ [.fetch name] ∧
        l.current = some (.fetch name (.done fetched)) ∧ last = l.verdict
  | .reporting d =>
      ∃ round, l.taken = l.tasks ++ [round.task] ∧ l.current = some round ∧
        round.verdict l.verdict = .ofDiagnostic d
  | .finishing =>
      ∃ round, l.taken = l.tasks ++ [round.task] ∧ l.current = some round ∧
        last = round.verdict l.verdict

theorem Phase.isExit_of_isSealed
    {phase : Phase} (h : phase.isSealed = true) : phase.isExit = true := by
  cases phase <;> simp_all [isSealed, isExit]

/-- Once the worker leaves, the last result may be anything. -/
theorem Ledger.Standing.of_isExit
    {l : Ledger} {last : Verdict} {phase : Phase} (h : l.Standing last phase)
    (hexit : phase.isExit = true) (other : Verdict) : l.Standing other phase := by
  cases phase with
  | starting task =>
      cases task with
      | shutdown => exact h
      | execute query => cases hexit
      | fetch name => cases hexit
  | closing => exact h
  | crashing => exact h
  | leaving => exact h
  | sealing => exact h
  | dropping => exact h
  | gone => exact h
  | _ => cases hexit

/-- The worker has completed all that it took, or has one more task in hand. -/
theorem Ledger.Standing.taken_cases
    {l : Ledger} {last : Verdict} {phase : Phase} (h : l.Standing last phase) :
    (l.taken = l.tasks ∧ (phase = .arriving ∨ phase = .waiting ∨ l.deserted = true)) ∨
      ∃ task, l.taken = l.tasks ++ [task] := by
  have hexit : l.deserted = true ∧ l.taken = l.tasks ∨ (∃ task, l.taken = l.tasks ++ [task]) →
      (l.taken = l.tasks ∧ (phase = .arriving ∨ phase = .waiting ∨ l.deserted = true)) ∨
        ∃ task, l.taken = l.tasks ++ [task] :=
    Or.imp_left fun hleft => ⟨hleft.2, Or.inr (Or.inr hleft.1)⟩
  cases phase with
  | arriving => exact Or.inl ⟨h.1, Or.inl rfl⟩
  | waiting => exact Or.inl ⟨h.1, Or.inr (Or.inl rfl)⟩
  | starting task =>
      cases task with
      | shutdown => exact hexit h
      | execute query => exact Or.inr ⟨_, h.1⟩
      | fetch name => exact Or.inr ⟨_, h.1⟩
  | clearing query => exact Or.inr ⟨_, h.1⟩
  | executing query => exact Or.inr ⟨_, h.1⟩
  | fetching name => exact Or.inr ⟨_, h.1⟩
  | storing name rows =>
      obtain ⟨fetched, -, htaken, -⟩ := h
      exact Or.inr ⟨_, htaken⟩
  | reporting d =>
      obtain ⟨round, htaken, -⟩ := h
      exact Or.inr ⟨_, htaken⟩
  | finishing =>
      obtain ⟨round, htaken, -⟩ := h
      exact Or.inr ⟨_, htaken⟩
  | closing => exact hexit h
  | crashing => exact hexit h
  | leaving => exact hexit h
  | sealing => exact hexit h
  | dropping => exact hexit h
  | gone => exact hexit h

/-- A fetch for the name has been asked for and has not run to its end. -/
def Outstanding (t : Terminal) (stages : Multiset Stage) (name : String) : Prop :=
  .counting (.fetch name) ∈ stages ∨ .sending (.fetch name) ∈ stages ∨
    .fetch name ∈ t.queue ∨ t.phase.isFetching name = true

/-- What the callers have under way stays outstanding when the worker makes a step. -/
theorem Outstanding.step
    {t t' : Terminal} {stages : Multiset Stage} {name : String} (h : t.Outstanding stages name)
    (hqueue : .fetch name ∈ t.queue → t'.Outstanding stages name)
    (hphase : t.phase.isFetching name = true → t'.Outstanding stages name) :
    t'.Outstanding stages name := by
  rcases h with hcounting | hsending | hin | hfetching
  · exact Or.inl hcounting
  · exact Or.inr (Or.inl hsending)
  · exact hqueue hin
  · exact hphase hfetching

/-- The caller has counted its task and not sent it. -/
def Stage.isSending : Stage → Bool
  | .sending _ => true
  | _ => false

/-- How many callers have counted their task and not sent it. -/
def senders (stages : Multiset Stage) : Nat :=
  stages.countP (·.isSending = true)

@[simp] theorem senders_cons
    (stage : Stage) (stages : Multiset Stage) :
    senders (stage ::ₘ stages) = senders stages + if stage.isSending then 1 else 0 := by
  unfold senders
  by_cases h : stage.isSending = true
  · rw [if_pos h]
    exact Multiset.countP_cons_of_pos stages h
  · rw [if_neg h]
    exact Multiset.countP_cons_of_neg stages h

@[simp] theorem senders_zero : senders 0 = 0 :=
  Multiset.countP_zero _

/-- A terminal, the stages of the calls on it and its ledger belong together. -/
structure Orderly (t : Terminal) (stages : Multiset Stage) (l : Ledger) : Prop where
  /-- The queue holds what was sent and not taken. -/
  fifo : t.isGone = false → l.sent = l.taken ++ t.queue
  taken_prefix : l.taken <+: l.sent
  standing : l.Standing t.last t.phase
  closed_iff : t.closed = true ↔ t.phase.isSealed = true
  /-- Every task is counted from before it is sent until it is completed. -/
  counted : t.closed = false → t.pending + l.completed.length =
    t.queue.length + l.taken.length + senders stages
  drained : t.closed = true → t.pending = 0
  rejected : l.rejected ≠ [] → t.closed = true
  rejecting : ∀ task, .rejecting task ∈ stages → t.closed = true
  uncounting : ∀ task, .uncounting task ∈ stages → t.isGone = true
  /-- Rows that were fetched are stored unless the same name is being fetched again. -/
  kept : t.phase.isExit = false → ∀ name rows, ¬ t.Outstanding stages name →
    l.fetched name = some (.done rows) → t.result? name = some (.ready (rowsValue rows))

/-- A terminal as it is when its worker starts, with any number of handles. -/
def Fresh (t : Terminal) : Prop :=
  ∃ name connection handles, t = { name, connection, handles }

theorem Fresh.orderly
    {t : Terminal} (h : t.Fresh) : Orderly t 0 {} := by
  obtain ⟨name, connection, handles, rfl⟩ := h
  constructor
  case standing => exact ⟨rfl, rfl, rfl⟩
  all_goals simp [Phase.isSealed, Ledger.fetched, Ledger.rounds]

namespace Orderly

variable {t : Terminal} {stages : Multiset Stage} {l : Ledger}

/-! ### Steps of callers -/

theorem begin
    (h : Orderly t stages l) (call : Call) : Orderly t (call.stage ::ₘ stages) l where
  fifo := h.fifo
  taken_prefix := h.taken_prefix
  standing := h.standing
  closed_iff := h.closed_iff
  counted hopen := by
    rw [h.counted hopen]
    cases call <;> simp [Call.stage, Stage.isSending]
  drained := h.drained
  rejected := h.rejected
  rejecting task htask := by
    refine h.rejecting task ?_
    cases call <;> simpa [Call.stage] using htask
  uncounting task htask := by
    refine h.uncounting task ?_
    cases call <;> simpa [Call.stage] using htask
  kept hphase name rows hname := by
    refine h.kept hphase name rows ?_
    intro houtstanding
    apply hname
    rcases houtstanding with hcount | hsend | hrest
    · exact Or.inl (Multiset.mem_cons_of_mem hcount)
    · exact Or.inr (Or.inl (Multiset.mem_cons_of_mem hsend))
    · exact Or.inr (Or.inr hrest)

/-- Stages that touch neither the queue nor the count come and go. -/
theorem idle
    {stage : Stage} (h : Orderly t (stage ::ₘ stages) l) (hstage : stage.isIdle = true)
    {p : Progress} (hp : ∀ next ∈ p.stages, next.isIdle = true) (joinable : Bool)
    (handles : Nat) : Orderly { t with joinable, handles } (p.stages + stages) l := by
  have hmem : ∀ other : Stage, other.isIdle = false →
      (other ∈ p.stages + stages ↔ other ∈ stage ::ₘ stages) := by
    intro other hother
    have hne : other ≠ stage := by
      rintro rfl
      simp [hother] at hstage
    have hnot : other ∉ p.stages := by
      intro hin
      simp [hp other hin] at hother
    simp [hne, hnot]
  have hsenders : senders (p.stages + stages) = senders (stage ::ₘ stages) := by
    have hidle : ∀ idle : Stage, idle.isIdle = true → idle.isSending = false := by
      intro idle hidle
      cases idle <;> simp_all [Stage.isIdle, Stage.isSending]
    rcases p with next | answer
    · have hnext := hidle next (hp next (Multiset.mem_singleton_self next))
      simp [Progress.stages, Multiset.singleton_add, hnext, hidle stage hstage]
    · simp [Progress.stages, hidle stage hstage]
  exact {
    fifo := h.fifo
    taken_prefix := h.taken_prefix
    standing := h.standing
    closed_iff := h.closed_iff
    counted := fun hopen => by rw [hsenders]; exact h.counted hopen
    drained := h.drained
    rejected := h.rejected
    rejecting := fun task htask => h.rejecting task ((hmem _ rfl).mp htask)
    uncounting := fun task htask => h.uncounting task ((hmem _ rfl).mp htask)
    kept := fun hphase name rows hname => by
      refine h.kept hphase name rows ?_
      have hcounting := hmem (.counting (.fetch name)) rfl
      have hsending := hmem (.sending (.fetch name)) rfl
      simpa only [Outstanding, hcounting, hsending] using hname }

/-- On a terminal that refuses tasks a call goes on to its end. -/
theorem refused
    {stage : Stage} {p : Progress} (h : Orderly t (stage ::ₘ stages) l)
    (hclosed : t.closed = true) (hp : ∀ task, .uncounting task ∈ p.stages → t.isGone = true)
    (last : Verdict) : Orderly { t with pending := 0, last } (p.stages + stages) l where
  fifo := h.fifo
  taken_prefix := h.taken_prefix
  standing :=
    h.standing.of_isExit (Phase.isExit_of_isSealed (h.closed_iff.mp hclosed)) last
  closed_iff := h.closed_iff
  counted hopen := by simp [hclosed] at hopen
  drained _ := rfl
  rejected _ := hclosed
  rejecting _ _ := hclosed
  uncounting task htask := by
    rcases Multiset.mem_add.mp htask with hin | hin
    · exact hp task hin
    · exact h.uncounting task (Multiset.mem_cons_of_mem hin)
  kept hphase := by
    have hexit := Phase.isExit_of_isSealed (h.closed_iff.mp hclosed)
    simp [hexit] at hphase

theorem recordRejected
    (h : Orderly t stages l) (hclosed : t.closed = true) (task : Task) :
    Orderly t stages (l.record (.rejected task)) :=
  { h with rejected := fun _ => hclosed }

theorem mark
    {name : String} (h : Orderly t (.marking name ::ₘ stages) l) :
    Orderly (t.store name .notReady) (.counting (.fetch name) ::ₘ stages) l where
  fifo := h.fifo
  taken_prefix := h.taken_prefix
  standing := h.standing
  closed_iff := h.closed_iff
  counted hopen := by simpa [Stage.isSending, store] using h.counted hopen
  drained := h.drained
  rejected := h.rejected
  rejecting task htask := h.rejecting task (by simpa using htask)
  uncounting task htask := h.uncounting task (by simpa using htask)
  kept hphase other rows hother hrows := by
    have hne : other ≠ name := by
      rintro rfl
      exact hother (Or.inl (Multiset.mem_cons_self _ _))
    have hresult := h.kept hphase other rows (by
      intro houtstanding
      apply hother
      rcases houtstanding with hin | hin | hin
      · exact Or.inl (Multiset.mem_cons_of_mem (by simpa using hin))
      · exact Or.inr (Or.inl (Multiset.mem_cons_of_mem (by simpa using hin)))
      · exact Or.inr (Or.inr hin)) hrows
    have hbeq : (other == name) = false := by simpa using hne
    rw [result?, store, List.lookup_cons, hbeq]
    exact hresult

theorem count
    {task : Task} (h : Orderly t (.counting task ::ₘ stages) l) (hopen : t.closed = false) :
    Orderly { t with pending := t.pending + 1 } (.sending task ::ₘ stages) l where
  fifo := h.fifo
  taken_prefix := h.taken_prefix
  standing := h.standing
  closed_iff := h.closed_iff
  counted _ := by
    have hcounted := h.counted hopen
    simp [Stage.isSending] at hcounted ⊢
    omega
  drained hclosed := by simp [hopen] at hclosed
  rejected := h.rejected
  rejecting other hother := h.rejecting other (by simpa using hother)
  uncounting other hother := h.uncounting other (by simpa using hother)
  kept hphase name rows hname hrows := by
    refine h.kept hphase name rows ?_ hrows
    intro houtstanding
    apply hname
    rcases houtstanding with hin | hin | hin
    · rcases Multiset.mem_cons.mp hin with heq | hin
      · cases heq
        exact Or.inr (Or.inl (Multiset.mem_cons_self _ _))
      · exact Or.inl (Multiset.mem_cons_of_mem hin)
    · exact Or.inr (Or.inl (Multiset.mem_cons_of_mem (by simpa using hin)))
    · exact Or.inr (Or.inr hin)

theorem send
    {task : Task} (h : Orderly t (.sending task ::ₘ stages) l) (hgone : t.isGone = false) :
    Orderly { t with queue := t.queue ++ [task] } stages (l.record (.sent task)) where
  fifo _ := by
    simp only [Ledger.record]
    rw [h.fifo hgone, List.append_assoc]
  taken_prefix := h.taken_prefix.trans (List.prefix_append _ _)
  standing := h.standing
  closed_iff := h.closed_iff
  counted hopen := by
    have hcounted := h.counted hopen
    simp [Stage.isSending, Ledger.record] at hcounted ⊢
    omega
  drained := h.drained
  rejected := h.rejected
  rejecting other hother := h.rejecting other (Multiset.mem_cons_of_mem hother)
  uncounting other hother := h.uncounting other (Multiset.mem_cons_of_mem hother)
  kept hphase name rows hname hrows := by
    refine h.kept hphase name rows ?_ hrows
    intro houtstanding
    apply hname
    rcases houtstanding with hin | hin | hin | hin
    · exact Or.inl (by simpa using hin)
    · rcases Multiset.mem_cons.mp hin with heq | hin
      · cases heq
        exact Or.inr (Or.inr (Or.inl (by simp)))
      · exact Or.inr (Or.inl hin)
    · exact Or.inr (Or.inr (Or.inl (by simp [hin])))
    · exact Or.inr (Or.inr (Or.inr hin))

theorem closed_of_isGone
    (h : Orderly t stages l) (hgone : t.isGone = true) : t.closed = true := by
  rw [h.closed_iff]
  unfold isGone at hgone
  split at hgone
  · rename_i hphase
    rw [hphase]
    rfl
  · cases hgone

theorem pending_zero
    (h : Orderly t stages l) (hclosed : t.closed = true) :
    { t with pending := 0, last := t.last } = t := by
  rw [← h.drained hclosed]

/-- Every step of a caller keeps a terminal in order. -/
theorem advance
    {t' : Terminal} {stage : Stage} {deeds : List Deed} {p : Progress}
    (h : Orderly t (stage ::ₘ stages) l) (hadvance : Advances t stage deeds t' p) :
    Orderly t' (p.stages + stages) (l.recordAll deeds) := by
  cases hadvance with
  | mark name => simpa [Progress.stages] using h.mark
  | count task closed => simpa [Progress.stages] using h.count closed
  | late task closed =>
      rw [← h.pending_zero closed]
      exact h.refused (p := .goOn (.rejecting task)) closed (by simp [Progress.stages]) t.last
  | lose task gone =>
      have closed := h.closed_of_isGone gone
      rw [← h.pending_zero closed]
      exact h.refused (p := .goOn (.uncounting task)) closed (fun _ _ => gone) t.last
  | send task gone room => simpa [Progress.stages] using h.send gone
  | uncount task =>
      have closed := h.closed_of_isGone (h.uncounting task (Multiset.mem_cons_self _ _))
      rw [finish, h.drained closed]
      exact h.refused (p := .goOn (.rejecting task)) closed (by simp [Progress.stages]) t.last
  | reject task =>
      have closed := h.rejecting task (Multiset.mem_cons_self _ _)
      rw [← h.pending_zero closed]
      have hdone (last : Verdict) :=
        (h.refused (p := .done .nothing) closed (by simp [Progress.stages]) last).recordRejected
          closed task
      cases task with
      | shutdown => exact hdone t.last
      | execute query => exact hdone .shutDown
      | fetch name => exact hdone .shutDown
  | read idle answer => exact h.idle (p := .done answer) idle (by simp [Progress.stages]) _ _
  | claim =>
      exact h.idle (p := .goOn .joining) rfl (by simp [Progress.stages, Stage.isIdle]) false _
  | duplicate =>
      exact h.idle (p := .done .nothing) rfl (by simp [Progress.stages]) _ (t.handles + 1)
  | give => exact h.idle (p := .done .nothing) rfl (by simp [Progress.stages]) _ (t.handles - 1)

/-! ### Steps of the worker -/

/-- The worker goes on to another phase and leaves queue and count alone. -/
theorem turn
    {t' : Terminal} {l' : Ledger} (h : Orderly t stages l)
    (hbefore : t.phase.isSealed = false) (hafter : t'.phase.isSealed = false)
    (hshared : t'.queue = t.queue ∧ t'.pending = t.pending ∧ t'.closed = t.closed)
    (hledger : l'.sent = l.sent ∧ l'.rejected = l.rejected ∧ l'.taken = l.taken ∧
      l'.completed = l.completed)
    (hstanding : l'.Standing t'.last t'.phase)
    (hkept : t'.phase.isExit = false → ∀ name rows, ¬ t'.Outstanding stages name →
      l'.fetched name = some (.done rows) → t'.result? name = some (.ready (rowsValue rows))) :
    Orderly t' stages l' := by
  obtain ⟨hqueue, hpending, hclosed⟩ := hshared
  obtain ⟨hsent, hrejected, htaken, hcompleted⟩ := hledger
  have hopen : t.closed = false := by
    simpa [hbefore] using h.closed_iff
  have hhere : t.isGone = false := by
    have hnot : t.isGone ≠ true := fun hgone => by simp [h.closed_of_isGone hgone] at hopen
    simpa using hnot
  exact {
    fifo := fun _ => by rw [hsent, htaken, hqueue]; exact h.fifo hhere
    taken_prefix := by rw [hsent, htaken]; exact h.taken_prefix
    standing := hstanding
    closed_iff := by rw [hclosed, hopen, hafter]
    counted := fun _ => by rw [hpending, hcompleted, hqueue, htaken]; exact h.counted hopen
    drained := fun hsealed => by simp [hclosed, hopen] at hsealed
    rejected := by rw [hrejected, hclosed]; exact h.rejected
    rejecting := fun task htask => by simpa [hclosed] using h.rejecting task htask
    uncounting := fun task htask => by simp [h.uncounting task htask] at hhere
    kept := hkept }

/-- Rows stay stored while the worker goes on and fetches nothing. -/
theorem kept_of_same
    {t' : Terminal} {l' : Ledger} (h : Orderly t stages l) (hbefore : t.phase.isExit = false)
    (hqueue : t'.queue = t.queue) (hresults : t'.results = t.results)
    (hfetched : ∀ name, l'.fetched name = l.fetched name)
    (hfetching : ∀ name, t.phase.isFetching name = true → t'.phase.isFetching name = true) :
    ∀ name rows, ¬ t'.Outstanding stages name →
      l'.fetched name = some (.done rows) →
      t'.result? name = some (.ready (rowsValue rows)) := by
  intro name rows hname hrows
  rw [result?, hresults]
  refine h.kept hbefore name rows ?_ (by rwa [← hfetched])
  intro houtstanding
  refine hname (houtstanding.step ?_ ?_)
  · exact fun hin => Or.inr (Or.inr (Or.inl (by rwa [hqueue])))
  · exact fun hin => Or.inr (Or.inr (Or.inr (hfetching name hin)))

theorem take
    {task : Task} {rest : List Task} (h : Orderly t stages l) (hphase : t.phase = .waiting)
    (hqueue : t.queue = task :: rest) :
    Orderly { t with queue := rest, phase := .starting task } stages
      (l.record (.took task)) := by
  have hstanding := h.standing
  rw [hphase] at hstanding
  obtain ⟨htaken, hcurrent, hlast⟩ := hstanding
  have hopen : t.closed = false := by
    simpa [hphase, Phase.isSealed] using h.closed_iff
  have hhere : t.isGone = false := by simp [isGone, hphase]
  have hsent : l.sent = l.taken ++ [task] ++ rest := by
    rw [h.fifo hhere, hqueue, List.append_assoc, List.singleton_append]
  exact {
    fifo := fun _ => hsent
    taken_prefix := ⟨rest, hsent.symm⟩
    standing := by
      have htaken' : l.taken ++ [task] = l.tasks ++ [task] := by rw [htaken]
      cases task with
      | shutdown => exact Or.inr ⟨.shutdown, htaken'⟩
      | execute query => exact ⟨htaken', hcurrent, hlast⟩
      | fetch name => exact ⟨htaken', hcurrent, hlast⟩
    closed_iff := by simp [hopen, Phase.isSealed]
    counted := fun _ => by
      have hcounted := h.counted hopen
      simp [hqueue, Ledger.record] at hcounted ⊢
      omega
    drained := fun hclosed => by simp [hopen] at hclosed
    rejected := h.rejected
    rejecting := h.rejecting
    uncounting := fun other hother => by simp [h.uncounting other hother] at hhere
    kept := fun _ name rows hname hrows => by
      refine h.kept (by rw [hphase]; rfl) name rows ?_ hrows
      intro houtstanding
      refine hname (houtstanding.step ?_ ?_)
      · intro hin
        rw [hqueue] at hin
        rcases List.mem_cons.mp hin with heq | hin
        · subst heq
          exact Or.inr (Or.inr (Or.inr (by simp [Phase.isFetching])))
        · exact Or.inr (Or.inr (Or.inl hin))
      · simp [hphase, Phase.isFetching] }

theorem finish
    (h : Orderly t stages l) (hphase : t.phase = .finishing) :
    Orderly { t.finish with phase := .arriving } stages (l.record .finished) := by
  have hstanding := h.standing
  rw [hphase] at hstanding
  obtain ⟨round, htaken, hcurrent, hlast⟩ := hstanding
  have hopen : t.closed = false := by
    simpa [hphase, Phase.isSealed] using h.closed_iff
  have hhere : t.isGone = false := by simp [isGone, hphase]
  have hrounds : (l.record .finished).rounds = l.rounds := by
    simp [Ledger.record, Ledger.rounds]
  exact {
    fifo := fun _ => h.fifo hhere
    taken_prefix := h.taken_prefix
    standing := by
      refine ⟨?_, rfl, ?_⟩
      · simpa [Ledger.record, Ledger.tasks, hcurrent] using htaken
      · simpa [Terminal.finish, Ledger.record, Ledger.verdict, hcurrent] using hlast
    closed_iff := by simp [Terminal.finish, hopen, Phase.isSealed]
    counted := fun _ => by
      have hcounted := h.counted hopen
      have hlength : l.taken.length = l.completed.length + 1 := by
        rw [htaken, List.length_append, l.length_tasks, List.length_singleton]
      simp [Terminal.finish, Ledger.record, hcurrent] at hcounted ⊢
      omega
    drained := fun hclosed => by simp [Terminal.finish, hopen] at hclosed
    rejected := h.rejected
    rejecting := h.rejecting
    uncounting := fun task htask => by simp [h.uncounting task htask] at hhere
    kept := fun _ => by
      refine h.kept_of_same (by rw [hphase]; rfl) rfl rfl ?_ (by simp [hphase, Phase.isFetching])
      intro name
      rw [Ledger.fetched, hrounds, Ledger.fetched] }

theorem sealing
    (h : Orderly t stages l) (hphase : t.phase = .sealing) :
    Orderly { t with pending := 0, closed := true, phase := .dropping } stages l where
  fifo _ := h.fifo (by simp [isGone, hphase])
  taken_prefix := h.taken_prefix
  standing := by
    have hstanding := h.standing
    rw [hphase] at hstanding
    exact hstanding
  closed_iff := by simp [Phase.isSealed]
  counted hopen := by cases hopen
  drained _ := rfl
  rejected _ := rfl
  rejecting _ _ := rfl
  uncounting task htask := by
    have hgone := h.uncounting task htask
    simp [isGone, hphase] at hgone
  kept hexit := by cases hexit

theorem dropping
    (h : Orderly t stages l) (hphase : t.phase = .dropping) :
    Orderly { t with queue := [], phase := .gone } stages l := by
  have hclosed : t.closed = true := by
    rw [h.closed_iff, hphase]
    rfl
  exact {
    fifo := fun hhere => by cases hhere
    taken_prefix := h.taken_prefix
    standing := by
      have hstanding := h.standing
      rw [hphase] at hstanding
      exact hstanding
    closed_iff := by simp [hclosed, Phase.isSealed]
    counted := fun hopen => by simp [hclosed] at hopen
    drained := fun _ => h.drained hclosed
    rejected := fun _ => hclosed
    rejecting := fun _ _ => hclosed
    uncounting := fun _ _ => rfl
    kept := fun hexit => by cases hexit }

/-- The worker goes on in its loop and fetches nothing. -/
theorem onward
    {t' : Terminal} (h : Orderly t stages l)
    (hbefore : t.phase.isExit = false) (hafter : t'.phase.isSealed = false)
    (hshared : t'.queue = t.queue ∧ t'.pending = t.pending ∧ t'.closed = t.closed)
    (hresults : t'.results = t.results)
    (hfetching : ∀ name, t.phase.isFetching name = true → t'.phase.isFetching name = true)
    (hstanding : l.Standing t'.last t'.phase) : Orderly t' stages l := by
  refine h.turn ?_ hafter hshared ⟨rfl, rfl, rfl, rfl⟩ hstanding fun _ => ?_
  · rw [← Bool.not_eq_true]
    intro hsealed
    simp [Phase.isExit_of_isSealed hsealed] at hbefore
  · exact h.kept_of_same hbefore hshared.1 hresults (fun _ => rfl) hfetching

theorem standing_of
    (h : Orderly t stages l) {phase : Phase} (hphase : t.phase = phase) :
    l.Standing t.last phase := by
  rw [← hphase]
  exact h.standing

/-- The worker leaves or goes on leaving. -/
theorem exit
    {t' : Terminal} {l' : Ledger} (h : Orderly t stages l)
    (hbefore : t.phase.isSealed = false) (hafter : t'.phase.isSealed = false)
    (hshared : t'.queue = t.queue ∧ t'.pending = t.pending ∧ t'.closed = t.closed)
    (hledger : l'.sent = l.sent ∧ l'.rejected = l.rejected ∧ l'.taken = l.taken ∧
      l'.completed = l.completed)
    (hexit : t'.phase.isExit = true) (hstanding : l'.Standing t'.last t'.phase) :
    Orderly t' stages l' :=
  h.turn hbefore hafter hshared hledger hstanding fun hstay => by simp [hexit] at hstay

/-- The answer to a query. -/
theorem answerQuery
    {query : String} (h : Orderly t stages l) (hphase : t.phase = .executing query)
    (reply : Reply Unit) :
    Orderly { t with phase := .afterExecute reply } stages
      (l.record (.ran (.execute query reply))) := by
  obtain ⟨htaken, hcurrent, hlast⟩ := h.standing_of hphase
  refine h.turn (by rw [hphase]; rfl) ?_ ⟨rfl, rfl, rfl⟩ ⟨rfl, rfl, rfl, rfl⟩ ?_ fun _ => ?_
  · cases reply <;> rfl
  · cases reply with
    | done result => exact ⟨.execute query (.done result), htaken, rfl, hlast⟩
    | refused d => exact ⟨.execute query (.refused d), htaken, rfl, rfl⟩
    | crashed message => exact Or.inr ⟨.execute query, htaken⟩
  · refine h.kept_of_same (by rw [hphase]; rfl) rfl rfl ?_ (by simp [hphase, Phase.isFetching])
    intro name
    rw [Ledger.fetched_ran hcurrent]
    rfl

/-- The answer to a fetch. -/
theorem answerFetch
    {name : String} (h : Orderly t stages l) (hphase : t.phase = .fetching name)
    (reply : Reply (List Row)) :
    Orderly { t with phase := .afterFetch name reply } stages
      (l.record (.ran (.fetch name reply))) := by
  obtain ⟨htaken, hcurrent, hlast⟩ := h.standing_of hphase
  refine h.turn (by rw [hphase]; rfl) ?_ ⟨rfl, rfl, rfl⟩ ⟨rfl, rfl, rfl, rfl⟩ ?_ ?_
  · cases reply <;> rfl
  · cases reply with
    | done rows => exact ⟨rows, rfl, htaken, rfl, hlast⟩
    | refused d => exact ⟨.fetch name (.refused d), htaken, rfl, rfl⟩
    | crashed message => exact Or.inr ⟨.fetch name, htaken⟩
  · intro hstay other rows hother hrows
    rw [Ledger.fetched_ran hcurrent] at hrows
    by_cases heq : name = other
    · subst heq
      -- a fetch that went well is still to be stored, any other one has no rows
      cases reply with
      | done fetched =>
          exact absurd (Or.inr (Or.inr (Or.inr (by simp [Phase.afterFetch, Phase.isFetching]))))
            hother
      | refused d => simp [Round.fetched?] at hrows
      | crashed message => cases hstay
    · have hnone : (Round.fetch name reply).fetched? other = none := if_neg heq
      rw [hnone, Option.none_or] at hrows
      refine h.kept (by rw [hphase]; rfl) other rows ?_ hrows
      intro houtstanding
      refine hother (houtstanding.step ?_ ?_)
      · exact fun hin => Or.inr (Or.inr (Or.inl hin))
      · simp [hphase, Phase.isFetching, heq]

theorem store
    {name : String} {rows : Value} (h : Orderly t stages l)
    (hphase : t.phase = .storing name rows) :
    Orderly { t.store name (.ready rows) with phase := .finishing } stages l := by
  obtain ⟨fetched, rfl, htaken, hcurrent, hlast⟩ := h.standing_of hphase
  refine h.turn (by rw [hphase]; rfl) rfl ⟨rfl, rfl, rfl⟩ ⟨rfl, rfl, rfl, rfl⟩
    ⟨.fetch name (.done fetched), htaken, hcurrent, hlast⟩ ?_
  intro _ other rows hother hrows
  by_cases heq : other = name
  · subst heq
    have hlatest : l.fetched other = some (.done fetched) := by
      simp [Ledger.fetched, Ledger.rounds, hcurrent, Round.fetched?]
    rw [hlatest] at hrows
    cases hrows
    simp [result?, Terminal.store]
  · have hbeq : (other == name) = false := by simpa using heq
    simp only [result?, Terminal.store, List.lookup_cons, hbeq]
    refine h.kept (by rw [hphase]; rfl) other rows ?_ hrows
    intro houtstanding
    refine hother (houtstanding.step ?_ ?_)
    · exact fun hin => Or.inr (Or.inr (Or.inl hin))
    · simp [hphase, Phase.isFetching, Ne.symm heq]

/-- Every step of the worker keeps a terminal in order. -/
theorem work
    {db : Database σ} {w w' : σ} {t' : Terminal} {deeds : List Deed} (h : Orderly t stages l)
    (hworks : Works db w t deeds w' t') : Orderly t' stages (l.recordAll deeds) := by
  cases hworks with
  | arrive hphase =>
      have hstanding := h.standing_of hphase
      exact h.onward (by rw [hphase]; rfl) rfl ⟨rfl, rfl, rfl⟩ rfl
        (by simp [hphase, Phase.isFetching]) hstanding
  | take hphase queue => exact h.take hphase queue
  | desert hphase queue handles =>
      obtain ⟨htaken, -, -⟩ := h.standing_of hphase
      exact h.exit (by rw [hphase]; rfl) rfl ⟨rfl, rfl, rfl⟩ ⟨rfl, rfl, rfl, rfl⟩ rfl
        (Or.inl ⟨rfl, htaken⟩)
  | shut hphase =>
      have hstanding := h.standing_of hphase
      exact h.exit (by rw [hphase]; rfl) rfl ⟨rfl, rfl, rfl⟩ ⟨rfl, rfl, rfl, rfl⟩ rfl hstanding
  | startExecute hphase =>
      obtain ⟨htaken, hcurrent, -⟩ := h.standing_of hphase
      exact h.onward (by rw [hphase]; rfl) rfl ⟨rfl, rfl, rfl⟩ rfl
        (by simp [hphase, Phase.isFetching]) ⟨htaken, hcurrent⟩
  | startFetch hphase =>
      have hstanding := h.standing_of hphase
      exact h.onward (by rw [hphase]; rfl) rfl ⟨rfl, rfl, rfl⟩ rfl
        (by simp [hphase, Phase.isFetching]) hstanding
  | clear hphase =>
      obtain ⟨htaken, hcurrent⟩ := h.standing_of hphase
      exact h.onward (by rw [hphase]; rfl) rfl ⟨rfl, rfl, rfl⟩ rfl
        (by simp [hphase, Phase.isFetching]) ⟨htaken, hcurrent, rfl⟩
  | execute hphase => exact h.answerQuery hphase _
  | fetch hphase => exact h.answerFetch hphase _
  | store hphase => exact h.store hphase
  | report hphase =>
      obtain ⟨round, htaken, hcurrent, hverdict⟩ := h.standing_of hphase
      exact h.onward (by rw [hphase]; rfl) rfl ⟨rfl, rfl, rfl⟩ rfl
        (by simp [hphase, Phase.isFetching]) ⟨round, htaken, hcurrent, hverdict.symm⟩
  | finish hphase => exact h.finish hphase
  | close hphase =>
      rename_i reply _
      have hstanding := h.standing_of hphase
      refine h.exit (by rw [hphase]; rfl) ?_ ⟨rfl, rfl, rfl⟩ ⟨rfl, rfl, rfl, rfl⟩ ?_ ?_
      · cases reply <;> rfl
      · cases reply <;> rfl
      · cases reply <;> exact hstanding
  | crash hphase =>
      have hstanding := h.standing_of hphase
      exact h.exit (by rw [hphase]; rfl) rfl ⟨rfl, rfl, rfl⟩ ⟨rfl, rfl, rfl, rfl⟩ rfl hstanding
  | leave hphase =>
      have hstanding := h.standing_of hphase
      exact h.exit (by rw [hphase]; rfl) rfl ⟨rfl, rfl, rfl⟩ ⟨rfl, rfl, rfl, rfl⟩ rfl hstanding
  | refuse hphase => exact h.sealing hphase
  | drop hphase => exact h.dropping hphase

/-- Whoever makes a step, a terminal stays in order. -/
theorem visit
    {t' : Terminal} {stages' : Multiset Stage} {deeds : List Deed} (h : Orderly t stages l)
    (hvisit : Visit t stages deeds t' stages') : Orderly t' stages' (l.recordAll deeds) := by
  cases hvisit with
  | pass => exact h
  | work _ works => exact h.work works
  | begin t stages call => exact h.begin call
  | goOn _ advances => exact h.advance advances

/-! ### What order tells -/

/-- Completed tasks were taken, in the same order. -/
theorem tasks_prefix_taken
    (h : Orderly t stages l) : l.tasks <+: l.taken := by
  rcases h.standing.taken_cases with ⟨heq, -⟩ | ⟨task, heq⟩
  · exact ⟨[], by rw [List.append_nil, heq]⟩
  · exact ⟨[task], heq.symm⟩

/-- When no task is pending and the worker refuses none, all that was sent is completed. -/
theorem completed_of_pending_zero
    (h : Orderly t stages l) (hopen : t.closed = false) (hpending : t.pending = 0) :
    t.queue = [] ∧ l.taken = l.tasks ∧ l.sent = l.tasks := by
  have hcompleted := h.tasks_prefix_taken
  have hcounted := h.counted hopen
  have hlength := hcompleted.length_le
  rw [l.length_tasks] at hlength
  rw [hpending] at hcounted
  have hqueue : t.queue = [] := List.eq_nil_of_length_eq_zero (by omega)
  have htaken : l.taken = l.tasks := by
    refine (hcompleted.eq_of_length ?_).symm
    rw [l.length_tasks]
    omega
  have hhere : t.isGone = false := by
    rw [← Bool.not_eq_true]
    intro hgone
    simp [h.closed_of_isGone hgone] at hopen
  refine ⟨hqueue, htaken, ?_⟩
  rw [h.fifo hhere, hqueue, List.append_nil, htaken]

/-- A worker that has completed all it took, and was not deserted, is ready for the next task. -/
theorem ready_of_taken_eq
    (h : Orderly t stages l) (htaken : l.taken = l.tasks) (hdeserted : l.deserted = false) :
    t.phase = .arriving ∨ t.phase = .waiting := by
  rcases h.standing.taken_cases with ⟨-, harriving | hwaiting | hleft⟩ | ⟨task, heq⟩
  · exact Or.inl harriving
  · exact Or.inr hwaiting
  · simp [hdeserted] at hleft
  · have hlength := congrArg List.length (htaken.symm.trans heq)
    simp at hlength

end Orderly

end Terminal
end CaseSuite
