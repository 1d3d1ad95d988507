import DrmCxx.Planes.Matching

/-!
# The matching uses added edges only
-/

namespace DrmCxx.Planes.Matching

/-- Every matched pair is an edge. -/
def Sound (adj : Adjacency) (m : Matching) : Prop :=
  ∀ u v : ℕ, m.matchLeft[u]? = some (some v) → ∃ s, (v, s) ∈ adj.getD u []

theorem init_sound (adj : Adjacency) (nLeft nRight : ℕ) : (init nLeft nRight).Sound adj := by
  intro u v h
  rw [init, List.getElem?_replicate] at h
  split at h <;> simp at h

theorem Sound.congr {adj : Adjacency} {m m' : Matching} (h : m.Sound adj)
    (hl : m'.matchLeft = m.matchLeft) : m'.Sound adj := by
  intro u v hv
  rw [hl] at hv
  exact h u v hv

variable {adj : Adjacency} {nLeft : ℕ}

/-! ### The breadth-first search moves no pair -/

theorem bfsEdges_matching (nLeft d : ℕ) (es : List (ℕ × ℤ)) (m : Matching) (queue : List ℕ) :
    (bfsEdges nLeft d es m queue).1 =
      { m with dist := (bfsEdges nLeft d es m queue).1.dist } := by
  induction es generalizing m queue with
  | nil => rfl
  | cons e es ih =>
    rw [bfsEdges]
    split
    · rw [ih]
    · exact ih m queue

theorem bfsLoop_matchLeft (fuel : ℕ) (m : Matching) (queue : List ℕ) :
    (bfsLoop adj nLeft fuel m queue).matchLeft = m.matchLeft := by
  induction fuel generalizing m queue with
  | zero => rfl
  | succ fuel ih =>
    cases queue with
    | nil => rfl
    | cons u queue =>
      rw [bfsLoop]
      split
      · exact ih _ _
      · split
        · rw [ih, bfsEdges_matching]
        · exact ih _ _

theorem bfs_matchLeft (m : Matching) : (bfs adj nLeft m).2.matchLeft = m.matchLeft := by
  rw [bfs, bfsLoop_matchLeft]

/-! ### The depth-first search adds edges -/

theorem dfsEdges_sound {rec : ℕ → Matching → Bool × Matching}
    (hrec : ∀ i m, m.Sound adj → (rec i m).2.Sound adj) (u : ℕ) (es : List (ℕ × ℤ))
    (hes : ∀ e ∈ es, e ∈ adj.getD u []) (m : Matching) (hm : m.Sound adj) :
    (dfsEdges nLeft rec u es m).2.Sound adj := by
  induction es generalizing m with
  | nil => exact hm.congr rfl
  | cons e es ih =>
    have htail : ∀ e ∈ es, e ∈ adj.getD u [] := fun e he => hes e (List.mem_cons_of_mem _ he)
    rw [dfsEdges]
    split
    · have hr := hrec (m.partner nLeft e.1) m hm
      split
      · -- an augmenting path through this edge: `u` now holds it
        rename_i found
        intro w v hv
        by_cases hw : u = w
        · subst hw
          have hve : v = e.1 := by
            rw [List.getElem?_set_self'] at hv
            obtain ⟨_, _, hv⟩ := Option.map_eq_some_iff.mp hv
            exact (Option.some.inj hv).symm
          exact ⟨e.2, hve ▸ hes e List.mem_cons_self⟩
        · rw [List.getElem?_set_ne hw] at hv
          rw [found] at hr
          exact hr w v hv
      · rename_i missed
        rw [missed] at hr
        exact ih htail _ hr
    · exact ih htail m hm

theorem dfs_sound (fuel u : ℕ) (m : Matching) (hm : m.Sound adj) :
    (dfs adj nLeft fuel u m).2.Sound adj := by
  induction fuel generalizing u m with
  | zero => exact hm
  | succ fuel ih =>
    rw [dfs]
    split
    · exact hm
    · exact dfsEdges_sound ih u _ (fun _ he => he) m hm

theorem phase_sound (m : Matching) (hm : m.Sound adj) : (phase adj nLeft m).Sound adj := by
  unfold phase
  induction List.range nLeft generalizing m with
  | nil => exact hm
  | cons u us ih =>
    apply ih
    dsimp only
    split
    · exact dfs_sound _ u m hm
    · exact hm

theorem solveLoop_sound (nLeft fuel : ℕ) (m : Matching) (hm : m.Sound adj) :
    (solveLoop adj nLeft fuel m).Sound adj := by
  induction fuel generalizing m with
  | zero => exact hm
  | succ fuel ih =>
    have hb : (bfs adj nLeft m).2.Sound adj := hm.congr (bfs_matchLeft m)
    rw [solveLoop]
    split
    · rename_i heq
      rw [heq] at hb
      exact ih _ (phase_sound _ hb)
    · rename_i heq
      rw [heq] at hb
      exact hb

/-- Sorting the edges of a node keeps them. -/
theorem mem_sorted {u : ℕ} {e : ℕ × ℤ} :
    e ∈ (adj.map (List.insertionSort fun a b => a.2 ≥ b.2)).getD u [] ↔ e ∈ adj.getD u [] := by
  simp only [List.getD_eq_getElem?_getD, List.getElem?_map]
  cases adj[u]? <;> simp

/-- A pair the solved matching reports is an edge that was added. -/
theorem matchForLeft_solve {nRight u v : ℕ}
    (h : ((init nLeft nRight).solve adj nLeft).matchForLeft u = some v) :
    ∃ s, (v, s) ∈ adj.getD u [] := by
  have hs := solveLoop_sound nLeft (nLeft + 1) _
    (init_sound (adj.map (List.insertionSort fun a b => a.2 ≥ b.2)) nLeft nRight)
  have hv := Option.join_eq_some_iff.mp h
  obtain ⟨s, hmem⟩ := hs u v hv
  exact ⟨s, mem_sorted.mp hmem⟩

end DrmCxx.Planes.Matching
