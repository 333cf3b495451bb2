import Mathlib
import Floorplanner.Proofs.Annealing.Coherence
import Floorplanner.Proofs.ExactNumber
import Floorplanner.Random.Script

/-!
A run ends in the best layout that it met.

The walk goes on from every layout that it accepts, better or worse, and over restarts; what it
leaves behind is the cheapest since the last reset. A run is reset where it starts, and where it
shrinks the soft blocks: the shrunk layout takes the place of all layouts before it, even if it is
dearer. Costs are only compared, so all of this holds on any numbers that `<` orders.
-/

namespace Floorplanner

variable {α σ : Type}

/-- Numbers that `<` puts in order up to ties. A list with a NaN in it is not of this kind. -/
structure AreOrdered [Number α] (costs : List α) : Prop where
  asymm : ∀ a ∈ costs, ∀ b ∈ costs, a < b → ¬ b < a
  trans : ∀ a ∈ costs, ∀ b ∈ costs, ∀ c ∈ costs, ¬ a < b → ¬ b < c → ¬ a < c

theorem areOrdered_of_exact [ExactNumber α] (costs : List α) : AreOrdered costs where
  asymm := by
    intro a _ b _ less
    exact lt_asymm less
  trans := by
    intro a _ b _ c _ first second less
    exact absurd (less.trans_le (not_lt.mp second)) first

variable [Number α]

/--
The states that a walk has to choose from are coherent, its own and its best are among them, and
none of them is cheaper than the best.
-/
structure Walk.KeepsBest (annealer : Annealer α σ) (states : List (Snapshot α))
    (walk : Walk α σ) : Prop where
  coherent : ∀ state ∈ states, state.IsCoherent annealer
  current : walk.current ∈ states
  best : walk.best ∈ states
  least : ∀ state ∈ states, ¬ state.cost < walk.best.cost

namespace Annealer

variable [IndexSource σ] [FractionSource σ α] (annealer : Annealer α σ)

def acceptsIn (iteration : Iteration α σ) : Bool :=
  (annealer.decision iteration.temperature iteration.walk).1

def shrinksIn (iteration : Iteration α σ) : Bool :=
  decide (iteration.walk.shrinks < (annealer.after iteration).shrinks)

def keep (states : List (Snapshot α)) (iteration : Iteration α σ) : List (Snapshot α) :=
  let next := (annealer.after iteration).current
  if annealer.shrinksIn iteration then [next]
  else if annealer.acceptsIn iteration then states ++ [next]
  else states

/-- The state of a run at its last reset, and all that it accepts after it. -/
def sinceReset : List (Snapshot α) := annealer.log.foldl annealer.keep [annealer.start.current]

def accepted : List (Snapshot α) :=
  (annealer.log.filter annealer.acceptsIn).map fun iteration => (annealer.after iteration).current

def compared : List (Snapshot α) :=
  annealer.start.current :: annealer.log.flatMap fun iteration =>
    [annealer.candidate iteration.walk, (annealer.after iteration).current]

variable {annealer} {states : List (Snapshot α)} {iteration : Iteration α σ} {costs : List α}

theorem keep_of_shrinks (shrinks : annealer.shrinksIn iteration = true) :
    annealer.keep states iteration = [(annealer.after iteration).current] := by
  simp only [keep, shrinks, if_true]

theorem keep_of_accepts (keeps : annealer.shrinksIn iteration = false)
    (accepts : annealer.acceptsIn iteration = true) :
    annealer.keep states iteration = states ++ [(annealer.after iteration).current] := by
  simp [keep, keeps, accepts]

theorem keep_of_rejects (keeps : annealer.shrinksIn iteration = false)
    (rejects : annealer.acceptsIn iteration = false) :
    annealer.keep states iteration = states := by
  simp [keep, keeps, rejects]

theorem mem_keep {state : Snapshot α} (member : state ∈ annealer.keep states iteration) :
    state ∈ states ∨ state = (annealer.after iteration).current := by
  rw [keep] at member
  split at member
  · exact .inr (List.mem_singleton.mp member)
  · split at member
    · rcases List.mem_append.mp member with earlier | last
      · exact .inl earlier
      · exact .inr (List.mem_singleton.mp last)
    · exact .inl member

theorem mem_foldl_keep {log : List (Iteration α σ)} {state : Snapshot α}
    (member : state ∈ log.foldl annealer.keep states) :
    state ∈ states ∨ ∃ iteration ∈ log, state = (annealer.after iteration).current := by
  induction log generalizing states with
  | nil => exact .inl member
  | cons iteration rest induction =>
      rcases induction member with kept | ⟨later, laterMember, equality⟩
      · rcases mem_keep kept with earlier | equality
        · exact .inl earlier
        · exact .inr ⟨iteration, List.mem_cons_self, equality⟩
      · exact .inr ⟨later, .tail _ laterMember, equality⟩

theorem foldl_keep_of_not_shrinks {log : List (Iteration α σ)}
    (keeps : ∀ iteration ∈ log, annealer.shrinksIn iteration = false) :
    log.foldl annealer.keep states = states ++ (log.filter annealer.acceptsIn).map
      fun iteration => (annealer.after iteration).current := by
  induction log generalizing states with
  | nil => simp
  | cons iteration rest induction =>
      have head := keeps iteration List.mem_cons_self
      rw [List.foldl_cons, induction fun other member => keeps other (.tail _ member)]
      cases accepts : annealer.acceptsIn iteration with
      | true => simp [keep_of_accepts head accepts, accepts]
      | false => simp [keep_of_rejects head accepts, accepts]

theorem keepsBest_after (walk : iteration.walk.KeepsBest annealer states)
    (coherent : iteration.walk.IsCoherent annealer) (ordered : AreOrdered costs)
    (known : ∀ state ∈ states, state.cost ∈ costs)
    (candidate : (annealer.candidate iteration.walk).cost ∈ costs)
    (next : (annealer.after iteration).current.cost ∈ costs) :
    (annealer.after iteration).KeepsBest annealer (annealer.keep states iteration) := by
  have iterates : annealer.Iterates iteration.step iteration.temperature iteration.walk
      (annealer.after iteration) := iterates_iterate coherent
  have nextCoherent := (iterates.isCoherent coherent).current
  generalize reached : annealer.after iteration = after at iterates next nextCoherent
  cases iterates with
  | reject decided =>
      have rejects : annealer.acceptsIn iteration = false := congrArg Prod.fst decided
      have keeps : annealer.shrinksIn iteration = false := by simp [shrinksIn, reached]
      rw [keep_of_rejects keeps rejects]
      exact ⟨walk.coherent, walk.current, walk.best, walk.least⟩
  | accept decided notBetter =>
      have accepts : annealer.acceptsIn iteration = true := congrArg Prod.fst decided
      have keeps : annealer.shrinksIn iteration = false := by simp [shrinksIn, reached]
      rw [keep_of_accepts keeps accepts, reached]
      constructor
      · simpa [or_imp, forall_and] using ⟨walk.coherent, nextCoherent⟩
      · simp
      · exact List.mem_append_left _ walk.best
      · simpa [or_imp, forall_and] using ⟨walk.least, notBetter⟩
  | improve decided better _ =>
      have accepts : annealer.acceptsIn iteration = true := congrArg Prod.fst decided
      have keeps : annealer.shrinksIn iteration = false := by simp [shrinksIn, reached]
      have best := known _ walk.best
      have notCheaper : ∀ state ∈ states,
          ¬ state.cost < (annealer.candidate iteration.walk).cost := by
        intro state member
        apply ordered.trans _ (known state member) _ best _ candidate (walk.least state member)
        exact ordered.asymm _ candidate _ best better
      have notItself : ¬ (annealer.candidate iteration.walk).cost <
          (annealer.candidate iteration.walk).cost :=
        fun less => ordered.asymm _ candidate _ candidate less less
      rw [keep_of_accepts keeps accepts, reached]
      constructor
      · simpa [or_imp, forall_and] using ⟨walk.coherent, nextCoherent⟩
      · simp
      · simp
      · simpa [or_imp, forall_and] using ⟨notCheaper, notItself⟩
  | shrink decided _ _ =>
      have shrinks : annealer.shrinksIn iteration = true := by simp [shrinksIn, reached]
      rw [keep_of_shrinks shrinks, reached]
      constructor
      · simpa using nextCoherent
      · simp
      · simp
      · simpa using fun less => ordered.asymm _ next _ next less less

theorem Chain.keepsBest {first last : Walk α σ} {log : List (Iteration α σ)}
    (chain : annealer.Chain first log last) (walk : first.KeepsBest annealer states)
    (coherent : first.IsCoherent annealer) (ordered : AreOrdered costs)
    (known : ∀ state ∈ states, state.cost ∈ costs)
    (candidates : ∀ iteration ∈ log, (annealer.candidate iteration.walk).cost ∈ costs)
    (followers : ∀ iteration ∈ log, (annealer.after iteration).current.cost ∈ costs) :
    last.KeepsBest annealer (log.foldl annealer.keep states) := by
  induction chain generalizing states with
  | nil => exact walk
  | cons iteration chain induction =>
      have candidate := candidates iteration List.mem_cons_self
      have next := followers iteration List.mem_cons_self
      apply induction (keepsBest_after walk coherent ordered known candidate next)
      · exact (iterates_iterate coherent).isCoherent coherent
      · intro state member
        rcases mem_keep member with earlier | rfl
        · exact known state earlier
        · exact next
      · exact fun other member => candidates other (.tail _ member)
      · exact fun other member => followers other (.tail _ member)

theorem mem_compared_of_mem_sinceReset {state : Snapshot α}
    (member : state ∈ annealer.sinceReset) : state ∈ annealer.compared := by
  rcases mem_foldl_keep member with start | ⟨iteration, logged, rfl⟩
  · rw [List.mem_singleton.mp start]
    exact List.mem_cons_self
  · exact .tail _ (List.mem_flatMap.mpr ⟨iteration, logged, by simp⟩)

theorem IsCoherent.keepsBest (coherent : annealer.IsCoherent)
    (ordered : AreOrdered (annealer.compared.map (·.cost))) :
    annealer.finish.KeepsBest annealer annealer.sinceReset := by
  have start : annealer.start.current.cost ∈ annealer.compared.map (·.cost) :=
    List.mem_map_of_mem List.mem_cons_self
  have pair (iteration) (member : iteration ∈ annealer.log) (state : Snapshot α)
      (which : state ∈ [annealer.candidate iteration.walk, (annealer.after iteration).current]) :
      state.cost ∈ annealer.compared.map (·.cost) :=
    List.mem_map_of_mem (.tail _ (List.mem_flatMap.mpr ⟨iteration, member, which⟩))
  apply annealer.chain_log.keepsBest _ coherent.start ordered
  · simpa using start
  · exact fun iteration member => pair iteration member _ (by simp)
  · exact fun iteration member => pair iteration member _ (by simp)
  · constructor
    · simpa using coherent.start.current
    · exact List.mem_singleton_self _
    · exact List.mem_singleton_self _
    · intro state member
      rw [List.mem_singleton.mp member]
      exact fun less => ordered.asymm _ start _ start less less

def kept (annealer : Annealer α σ) : Snapshot α :=
  if annealer.finish.best.cost < annealer.finish.current.cost then annealer.finish.best
  else annealer.finish.current

theorem kept_mem_sinceReset (keeps : annealer.finish.KeepsBest annealer annealer.sinceReset) :
    annealer.kept ∈ annealer.sinceReset := by
  rw [kept]
  split
  · exact keeps.best
  · exact keeps.current

/-- The best is left only for a state that it ties with. -/
theorem not_lt_kept (keeps : annealer.finish.KeepsBest annealer annealer.sinceReset)
    (ordered : AreOrdered (annealer.compared.map (·.cost))) {state : Snapshot α}
    (member : state ∈ annealer.sinceReset) : ¬ state.cost < annealer.kept.cost := by
  have known {state : Snapshot α} (member : state ∈ annealer.sinceReset) :
      state.cost ∈ annealer.compared.map (·.cost) :=
    List.mem_map_of_mem (mem_compared_of_mem_sinceReset member)
  rw [kept]
  split
  next => exact keeps.least state member
  next tied =>
    exact ordered.trans _ (known member) _ (known keeps.best) _ (known keeps.current)
      (keeps.least state member) tied

/--
What a run leaves behind is one of the states since its last reset, with the cost of that state, and
none of them is cheaper. If the run never shrinks the soft blocks, these are the state that it
starts from and all that it accepts.
-/
structure LeavesBest (annealer : Annealer α σ) : Prop where
  coherent : ∀ state ∈ annealer.sinceReset, state.IsCoherent annealer
  kept : ∃ state ∈ annealer.sinceReset,
    state.layout = annealer.run.2.layout ∧ state.cost = annealer.run.2.cost
  least : ∀ state ∈ annealer.sinceReset, ¬ state.cost < annealer.run.2.cost
  unshrunk : (∀ iteration ∈ annealer.log, annealer.shrinksIn iteration = false) →
    annealer.sinceReset = annealer.start.current :: annealer.accepted

/-- Every run leaves the best layout behind, whatever was done to the annealer before. -/
theorem run_leaves_best (problem : Problem α) (config : Config α) (coolingRate : α) (source : σ)
    (operations : List (Operation α))
    (ordered : AreOrdered
      ((reached problem config coolingRate source operations).compared.map (·.cost))) :
    (reached problem config coolingRate source operations).LeavesBest := by
  generalize atRun : reached problem config coolingRate source operations = annealer at ordered ⊢
  have coherent : annealer.IsCoherent := by
    rw [← atRun]
    exact (isCoherent_new problem config coolingRate source).performAll operations
  have keeps := coherent.keepsBest ordered
  have member := kept_mem_sinceReset keeps
  have layout : annealer.kept.layout = annealer.run.2.layout := annealer.layout_run.symm
  have cost : annealer.kept.cost = annealer.run.2.cost :=
    calc
      annealer.kept.cost = annealer.costOf annealer.kept.layout := (keeps.coherent _ member).cost
      _ = annealer.costOf annealer.run.2.layout := congrArg annealer.costOf layout
      _ = annealer.run.2.cost := rfl
  constructor
  · exact keeps.coherent
  · exact ⟨annealer.kept, member, layout, cost⟩
  · intro state stateMember
    rw [← cost]
    exact not_lt_kept keeps ordered stateMember
  · exact foldl_keep_of_not_shrinks

theorem run_leaves_best_two :
    let problem : Problem ℝ :=
      { Problem.ofOutline ⟨3, 2⟩ with
        blocks := [.soft "core" 4 [⟨1, 4⟩], .hard "rom" 6 1 [⟨3, 2⟩, ⟨2, 3⟩]] }
    let start : Arrangement ℝ := ⟨problem.blocks, SequencePair.identity 2⟩
    let annealer : Annealer ℝ WordScript :=
      reached problem .default (1 / 2) ⟨[3, 1, 4, 1, 5]⟩ [.sample, .run, .setState start]
    AreOrdered (annealer.compared.map (·.cost)) ∧ annealer.LeavesBest := by
  intro problem start annealer
  refine ⟨areOrdered_of_exact _, ?_⟩
  apply run_leaves_best
  exact areOrdered_of_exact _

end Annealer

end Floorplanner
