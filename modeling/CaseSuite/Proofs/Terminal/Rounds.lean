import CaseSuite.Proofs.Terminal.Order

/-!
# Rounds in the order of their tasks

The worker brings its tasks before the database in the order in which it took them, one round for
each, until it leaves.  It leaves for one of two reasons: it was told to, and then it has completed
every round it began; or the database did not survive a round, and then that round is the last one
and stays open.  `Accounted` adds to a terminal in order why its worker leaves, and that the
database survived every other round.
-/

namespace CaseSuite
namespace Terminal

variable {σ : Type}

/-- The database did not survive the round. -/
def Round.isCrash : Round → Bool
  | .execute _ (.crashed _) | .fetch _ (.crashed _) => true
  | _ => false

/-- The round that a deed runs. -/
def Deed.round? : Deed → Option Round
  | .ran round => some round
  | _ => none

namespace Ledger

/-- The worker was told to leave, or nobody was left to tell it, and no round is open. -/
def Retired (l : Ledger) : Prop :=
  l.current = none ∧ (l.deserted = true ∧ l.taken = l.tasks ∨ l.taken = l.tasks ++ [.shutdown])

/-- The database did not survive the last round. -/
def Lost (l : Ledger) : Prop :=
  ∃ round, l.current = some round ∧ round.isCrash = true ∧ l.taken = l.tasks ++ [round.task]

/-- Why the worker leaves. -/
def Leaving (l : Ledger) : Phase → Prop
  | .starting .shutdown | .closing => l.Retired
  | .crashing | .leaving | .sealing | .dropping | .gone => l.Retired ∨ l.Lost
  | _ => True

/-- The database survived the rounds, except for an open one if the worker leaves. -/
structure Unhurt (l : Ledger) (phase : Phase) : Prop where
  completed : ∀ round ∈ l.completed, round.isCrash = false
  current : phase.isExit = false → ∀ round, l.current = some round → round.isCrash = false

end Ledger

/-- A worker that leaves does not come back. -/
theorem Works.isExit
    {db : Database σ} {w w' : σ} {t t' : Terminal} {deeds : List Deed}
    (h : Works db w t deeds w' t') (hexit : t.phase.isExit = true) : t'.phase.isExit = true := by
  cases h with
  | shut | crash | leave | refuse | drop => rfl
  | close =>
      rename_i reply _ _
      cases reply <;> rfl
  | _ => simp_all [Phase.isExit]

theorem Ledger.Unhurt.work
    {db : Database σ} {w w' : σ} {t t' : Terminal} {deeds : List Deed} {l : Ledger}
    (h : l.Unhurt t.phase) (hworks : Works db w t deeds w' t') :
    (l.recordAll deeds).Unhurt t'.phase := by
  have hstill : t'.phase.isExit = false → t.phase.isExit = false := by
    intro hstays
    by_contra hexit
    simp [hworks.isExit (by simpa using hexit)] at hstays
  cases hworks with
  | execute =>
      rename_i query reply _ _
      refine ⟨h.completed, ?_⟩
      intro hstays round hround
      cases hround
      cases reply with
      | crashed message => cases hstays
      | done result => rfl
      | refused d => rfl
  | fetch =>
      rename_i name reply _ _
      refine ⟨h.completed, ?_⟩
      intro hstays round hround
      cases hround
      cases reply with
      | crashed message => cases hstays
      | done result => rfl
      | refused d => rfl
  | finish hphase =>
      refine ⟨?_, fun _ round hround => by cases hround⟩
      intro round hround
      rcases List.mem_append.mp hround with hdone | hopen
      · exact h.completed round hdone
      · exact h.current (by rw [hphase]; rfl) round (Option.mem_toList.mp hopen)
  | _ => exact ⟨h.completed, fun hstays => h.current (hstill hstays)⟩

/-- A terminal is in order, and it is known why its worker leaves. -/
structure Accounted (t : Terminal) (stages : Multiset Stage) (l : Ledger) : Prop where
  orderly : Orderly t stages l
  leaving : l.Leaving t.phase
  unhurt : l.Unhurt t.phase

theorem Fresh.accounted
    {t : Terminal} (h : t.Fresh) : Accounted t 0 {} := by
  have horderly := h.orderly
  obtain ⟨name, connection, handles, rfl⟩ := h
  exact ⟨horderly, trivial, by simp, by simp⟩

namespace Accounted

variable {t t' : Terminal} {stages stages' : Multiset Stage} {deeds : List Deed} {l : Ledger}

theorem leaving_of
    (h : Accounted t stages l) {phase : Phase} (hphase : t.phase = phase) : l.Leaving phase := by
  rw [← hphase]
  exact h.leaving

/-- A step of the worker. -/
theorem work
    {db : Database σ} {w w' : σ} (h : Accounted t stages l)
    (hworks : Works db w t deeds w' t') : (l.recordAll deeds).Leaving t'.phase := by
  cases hworks with
  | take hphase queue =>
      rename_i task rest
      obtain ⟨htaken, hcurrent, -⟩ := h.orderly.standing_of hphase
      cases task with
      | shutdown =>
          have htold : l.taken ++ [.shutdown] = l.tasks ++ [.shutdown] := by rw [htaken]
          exact ⟨hcurrent, Or.inr htold⟩
      | execute query => trivial
      | fetch name => trivial
  | desert hphase =>
      obtain ⟨htaken, hcurrent, -⟩ := h.orderly.standing_of hphase
      exact ⟨hcurrent, Or.inl ⟨rfl, htaken⟩⟩
  | execute hphase =>
      rename_i query reply _
      obtain ⟨htaken, -⟩ := h.orderly.standing_of hphase
      cases reply with
      | crashed message => exact Or.inr ⟨_, rfl, rfl, htaken⟩
      | done result => trivial
      | refused d => trivial
  | fetch hphase =>
      rename_i name reply _
      obtain ⟨htaken, -⟩ := h.orderly.standing_of hphase
      cases reply with
      | crashed message => exact Or.inr ⟨_, rfl, rfl, htaken⟩
      | done result => trivial
      | refused d => trivial
  | shut hphase =>
      have hleaving := h.leaving_of hphase
      exact hleaving
  | close hphase =>
      rename_i reply _
      have hleaving := h.leaving_of hphase
      cases reply <;> exact Or.inl hleaving
  | crash hphase =>
      have hleaving := h.leaving_of hphase
      exact hleaving
  | leave hphase =>
      have hleaving := h.leaving_of hphase
      exact hleaving
  | refuse hphase =>
      have hleaving := h.leaving_of hphase
      exact hleaving
  | drop hphase =>
      have hleaving := h.leaving_of hphase
      exact hleaving
  | _ => trivial

/-- Whoever makes a step, a terminal stays accounted for. -/
theorem visit
    (h : Accounted t stages l) (hvisit : Visit t stages deeds t' stages') :
    Accounted t' stages' (l.recordAll deeds) := by
  have horderly := h.orderly.visit hvisit
  cases hvisit with
  | pass => exact h
  | work _ works => exact ⟨horderly, h.work works, h.unhurt.work works⟩
  | begin => exact ⟨horderly, h.leaving, h.unhurt⟩
  | goOn _ advances =>
      have hleaving := h.leaving
      have hunhurt := h.unhurt
      cases advances with
      | reject task => cases task <;> exact ⟨horderly, hleaving, hunhurt.completed, hunhurt.current⟩
      | _ => exact ⟨horderly, hleaving, hunhurt.completed, hunhurt.current⟩

/-- Every round is recorded, at the end. -/
theorem rounds_visit
    (h : Accounted t stages l) (hvisit : Visit t stages deeds t' stages') :
    (l.recordAll deeds).rounds = l.rounds ++ deeds.filterMap Deed.round? := by
  cases hvisit with
  | pass => simp
  | begin => simp [Ledger.record, Ledger.rounds, Deed.round?]
  | work _ works =>
      cases works with
      | execute hphase =>
          obtain ⟨-, hcurrent, -⟩ := h.orderly.standing_of hphase
          simp [Ledger.record, Ledger.rounds, Deed.round?, hcurrent]
      | fetch hphase =>
          obtain ⟨-, hcurrent, -⟩ := h.orderly.standing_of hphase
          simp [Ledger.record, Ledger.rounds, Deed.round?, hcurrent]
      | _ => simp [Ledger.record, Ledger.rounds, Deed.round?]
  | goOn _ advances => cases advances <;> simp [Ledger.record, Ledger.rounds, Deed.round?]

/-- An open round belongs to the task that was taken last. -/
theorem current_cases
    (h : Accounted t stages l) :
    l.current = none ∨ ∃ round, l.current = some round ∧ l.taken = l.tasks ++ [round.task] := by
  have hleft : l.Retired ∨ l.Lost →
      l.current = none ∨ ∃ round, l.current = some round ∧ l.taken = l.tasks ++ [round.task] := by
    rintro (⟨hcurrent, -⟩ | ⟨round, hcurrent, -, htaken⟩)
    · exact Or.inl hcurrent
    · exact Or.inr ⟨round, hcurrent, htaken⟩
  have hstanding := h.orderly.standing
  have hleaving := h.leaving
  cases hphase : t.phase with
  | starting task =>
      rw [hphase] at hstanding hleaving
      cases task with
      | shutdown => exact hleft (Or.inl hleaving)
      | execute query => exact Or.inl hstanding.2.1
      | fetch name => exact Or.inl hstanding.2.1
  | clearing query =>
      rw [hphase] at hstanding
      exact Or.inl hstanding.2
  | arriving | waiting | executing | fetching =>
      rw [hphase] at hstanding
      exact Or.inl hstanding.2.1
  | storing name rows =>
      rw [hphase] at hstanding
      obtain ⟨fetched, -, htaken, hcurrent, -⟩ := hstanding
      exact Or.inr ⟨_, hcurrent, htaken⟩
  | reporting | finishing =>
      rw [hphase] at hstanding
      obtain ⟨round, htaken, hcurrent, -⟩ := hstanding
      exact Or.inr ⟨round, hcurrent, htaken⟩
  | closing =>
      rw [hphase] at hleaving
      exact hleft (Or.inl hleaving)
  | _ =>
      rw [hphase] at hleaving
      exact hleft hleaving

/-- Rounds follow the order in which their tasks were taken. -/
theorem rounds_prefix_taken
    (h : Accounted t stages l) : l.rounds.map Round.task <+: l.taken := by
  rcases h.current_cases with hcurrent | ⟨round, hcurrent, htaken⟩
  · have hrounds : l.rounds.map Round.task = l.tasks := by
      simp [Ledger.rounds, hcurrent, Ledger.tasks]
    rw [hrounds]
    exact h.orderly.tasks_prefix_taken
  · rw [htaken]
    simp [Ledger.rounds, hcurrent, Ledger.tasks]

theorem rounds_prefix_sent
    (h : Accounted t stages l) : l.rounds.map Round.task <+: l.sent :=
  h.rounds_prefix_taken.trans h.orderly.taken_prefix

end Accounted

end Terminal
end CaseSuite
