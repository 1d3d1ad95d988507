import DrmCxx.Verification.Planes.MatchingLayers

/-!
# One search along the layers

A depth-first search that fails takes the distance of its node, and of others only where every node
one layer further has lost its own. One that succeeds matches its node and keeps every other left
node matched. Either way it changes nothing at its own distance or nearer.
-/

namespace DrmCxx.Planes.Matching

variable {adj : Adjacency} {nLeft nRight : ℕ} {m m₁ m' : Matching} {u d v : ℕ}

/-- The node searched from, and the nodes farther than it. -/
def Beyond (m : Matching) (d u w : ℕ) : Prop := w = u ∨ ∃ k, m.distOf w = some k ∧ d < k

/-- Distances are only taken, and only beyond the node. -/
def Takes (d u : ℕ) (m m' : Matching) : Prop :=
  ∀ w, m'.distOf w = m.distOf w ∨ Beyond m d u w ∧ m'.distOf w = none

/-- The pairs stay; a left node loses its distance once no node one layer further has one. -/
structure Poisons (adj : Adjacency) (nLeft : ℕ) (m m' : Matching) : Prop where
  left : m'.matchLeft = m.matchLeft
  right : m'.matchRight = m.matchRight
  length : m'.dist.length = m.dist.length
  sentinel : m'.distOf nLeft = m.distOf nLeft
  taken : ∀ w, m'.distOf w = m.distOf w ∨ m'.distOf w = none
  spent : ∀ w k, m.distOf w = some k → m'.distOf w = none → ∀ e ∈ adj.getD w [],
    m.distOf (m.partner nLeft e.1) = some (k + 1) → m'.distOf (m.partner nLeft e.1) = none

structure Fails (adj : Adjacency) (nLeft d u : ℕ) (m m' : Matching) : Prop where
  poisons : Poisons adj nLeft m m'
  takes : Takes d u m m'
  gone : m'.distOf u = none

/-- `u` is matched; a right node it held is now held by no left node. -/
structure Augments (nLeft nRight d u : ℕ) (m m' : Matching) : Prop where
  inverse : Inverse nLeft nRight (m.matchForLeft u) m'
  matched : ∀ w, (m'.matchForLeft w).isSome = true ↔ w = u ∨ (m.matchForLeft w).isSome = true
  held : ∀ w, m'.matchForLeft w = m.matchForLeft w ∨ Beyond m d u w
  takes : Takes d u m m'

/-- `v` is free to be taken, and no left node has lost its pair. -/
structure Vacates (nLeft nRight d u v : ℕ) (m m' : Matching) : Prop where
  inverse : Inverse nLeft nRight (some v) m'
  matched : ∀ w, (m'.matchForLeft w).isSome = true ↔ (m.matchForLeft w).isSome = true
  held : ∀ w, m'.matchForLeft w = m.matchForLeft w ∨ ∃ k, m.distOf w = some k ∧ d < k
  takes : Takes d u m m'

/-- What a search from `u` gives. -/
def Outcome (adj : Adjacency) (nLeft nRight d u : ℕ) (m : Matching) : Bool × Matching → Prop
  | (true, m') => Augments nLeft nRight d u m m'
  | (false, m') => Fails adj nLeft d u m m'

/-- A state a search may start in. -/
structure Ready (nLeft nRight : ℕ) (m : Matching) : Prop where
  inverse : Inverse nLeft nRight none m
  bounded : ∀ w k, m.distOf w = some k → k ≤ nLeft

/-! ### Failing searches -/

theorem Takes.refl (d u : ℕ) (m : Matching) : Takes d u m m := fun _ => .inl rfl

theorem Takes.trans {i : ℕ} (h₁ : Takes (d + 1) i m m₁) (hi : m.distOf i = some (d + 1))
    (h₂ : Takes d u m₁ m') : Takes d u m m' := by
  intro w
  rcases h₁ w with hw₁ | ⟨hbeyond, hnone⟩
  · rcases h₂ w with hw₂ | ⟨hbeyond, hnone⟩
    · exact .inl (hw₂.trans hw₁)
    · exact .inr ⟨hbeyond.imp_right fun ⟨k, hk, hlt⟩ => ⟨k, hw₁ ▸ hk, hlt⟩, hnone⟩
  · refine .inr ⟨.inr ?_, ?_⟩
    · rcases hbeyond with rfl | ⟨k, hk, hlt⟩
      · exact ⟨d + 1, hi, Nat.lt_succ_self d⟩
      · exact ⟨k, hk, Nat.lt_of_succ_lt hlt⟩
    · rcases h₂ w with hw₂ | ⟨-, hnone'⟩
      · exact hw₂.trans hnone
      · exact hnone'

namespace Poisons

theorem refl (adj : Adjacency) (nLeft : ℕ) (m : Matching) : Poisons adj nLeft m m :=
  ⟨rfl, rfl, rfl, rfl, fun _ => .inl rfl, fun w k hw hnone => by rw [hw] at hnone; cases hnone⟩

theorem partner (h : Poisons adj nLeft m m') (v : ℕ) :
    m'.partner nLeft v = m.partner nLeft v := by
  simp only [Matching.partner, h.right]

theorem matchForLeft (h : Poisons adj nLeft m m') (w : ℕ) :
    m'.matchForLeft w = m.matchForLeft w := by
  simp only [Matching.matchForLeft, h.left]

theorem matchForRight (h : Poisons adj nLeft m m') (w : ℕ) :
    m'.matchForRight w = m.matchForRight w := by
  simp only [Matching.matchForRight, h.right]

/-- A distance that is gone stays gone. -/
theorem none_of_none (h : Poisons adj nLeft m m') {w : ℕ} (hw : m.distOf w = none) :
    m'.distOf w = none := (h.taken w).elim (fun heq => heq.trans hw) id

theorem trans (h₁ : Poisons adj nLeft m m₁) (h₂ : Poisons adj nLeft m₁ m') :
    Poisons adj nLeft m m' where
  left := h₂.left.trans h₁.left
  right := h₂.right.trans h₁.right
  length := h₂.length.trans h₁.length
  sentinel := h₂.sentinel.trans h₁.sentinel
  taken w := by
    rcases h₂.taken w with hw | hw
    · rw [hw]
      exact h₁.taken w
    · exact .inr hw
  spent w k hw hnone e he hnext := by
    rcases h₁.taken (m.partner nLeft e.1) with hkept | hgone
    · rcases h₁.taken w with hw₁ | hw₁
      · rw [← h₁.partner] at hkept hnext ⊢
        exact h₂.spent w k (hw₁.trans hw) hnone e he (hkept.trans hnext)
      · exact h₂.none_of_none (h₁.spent w k hw hw₁ e he hnext)
    · exact h₂.none_of_none hgone

theorem ready (h : Poisons adj nLeft m m') (hm : Ready nLeft nRight m) :
    Ready nLeft nRight m' where
  inverse := {
    lefts := h.left ▸ hm.inverse.lefts
    rights := h.right ▸ hm.inverse.rights
    dists := h.length.trans hm.inverse.dists
    left w v hw := by
      rw [h.matchForLeft] at hw
      rw [h.matchForRight]
      exact hm.inverse.left w v hw
    right v w hv hhole := by
      rw [h.matchForRight] at hv
      rw [h.matchForLeft]
      exact hm.inverse.right v w hv hhole }
  bounded w k hw := by
    rcases h.taken w with heq | hnone
    · exact hm.bounded w k (heq ▸ hw)
    · rw [hnone] at hw
      cases hw

/-- The node itself, after all its edges have been tried. -/
theorem node (hu : u < nLeft) (hd : m.distOf u = some d)
    (hedges : ∀ e ∈ adj.getD u [], m.distOf (m.partner nLeft e.1) ≠ some (d + 1)) :
    Poisons adj nLeft m { m with dist := m.dist.set u none } := by
  have hlt : u < m.dist.length := distOf_lt hd
  refine ⟨rfl, rfl, List.length_set .., ?_, fun w => ?_, fun w k hw hnone e he hnext => ?_⟩
  · rw [distOf_set hlt, if_neg hu.ne']
  · rw [distOf_set hlt]
    split
    · exact .inr rfl
    · exact .inl rfl
  · rw [distOf_set hlt] at hnone
    split at hnone
    · rename_i heq
      subst heq
      rw [hd] at hw
      cases hw
      exact absurd hnext (hedges e he)
    · rw [hw] at hnone
      cases hnone

end Poisons

/-- A search from the next layer leaves the distance of the node it was made for. -/
theorem Fails.nearer {i : ℕ} (h : Fails adj nLeft (d + 1) i m m')
    (hi : m.distOf i = some (d + 1)) (hd : m.distOf u = some d) : m'.distOf u = some d := by
  rcases h.takes u with heq | ⟨hbeyond, -⟩
  · exact heq.trans hd
  · rcases hbeyond with rfl | ⟨k, hk, hlt⟩
    · rw [hd] at hi
      exact absurd (Option.some.inj hi) (Nat.ne_of_lt (Nat.lt_succ_self d))
    · rw [hd] at hk
      cases hk
      exact absurd (Nat.lt_of_succ_lt hlt) (lt_irrefl _)

/-- A failed search, then whatever follows at the node it was made for. -/
theorem Fails.outcome {i : ℕ} {r : Bool × Matching} (h₁ : Fails adj nLeft (d + 1) i m m₁)
    (hi : m.distOf i = some (d + 1)) (h₂ : Outcome adj nLeft nRight d u m₁ r) :
    Outcome adj nLeft nRight d u m r := by
  obtain ⟨_ | _, m'⟩ := r
  · exact ⟨h₁.poisons.trans h₂.poisons, h₁.takes.trans hi h₂.takes, h₂.gone⟩
  · refine ⟨h₁.poisons.matchForLeft u ▸ h₂.inverse, fun w => ?_, fun w => ?_,
      h₁.takes.trans hi h₂.takes⟩
    · rw [h₂.matched w, h₁.poisons.matchForLeft]
    · rw [← h₁.poisons.matchForLeft w]
      refine (h₂.held w).imp_right fun hbeyond => hbeyond.imp_right fun ⟨k, hk, hlt⟩ => ⟨k, ?_, hlt⟩
      rcases h₁.poisons.taken w with heq | hnone
      · exact heq ▸ hk
      · rw [hnone] at hk
        cases hk

/-! ### Succeeding searches -/

theorem Ready.partner_le (hm : Ready nLeft nRight m) (v : ℕ) : m.partner nLeft v ≤ nLeft := by
  rcases partner_cases nLeft m v with ⟨-, heq⟩ | hsome
  · exact heq.le
  · exact (hm.inverse.partner_lt hsome).le

theorem Ready.vacates_free (hm : Ready nLeft nRight m) (hv : m.partner nLeft v = nLeft) :
    Vacates nLeft nRight d u v m m := by
  have hfree : m.matchForRight v = none := by
    rcases partner_cases nLeft m v with ⟨hnone, -⟩ | hsome
    · exact hnone
    · exact absurd (hm.inverse.partner_lt hsome) hv.ge.not_gt
  refine ⟨{ hm.inverse with left := fun w v' hw => ⟨(hm.inverse.left w v' hw).1, ?_⟩
                            right := fun v' w hw _ => hm.inverse.right v' w hw nofun },
    fun w => Iff.rfl, fun w => .inl rfl, Takes.refl d u m⟩
  rintro ⟨rfl⟩
  have := (hm.inverse.left w v hw).1
  rw [hfree] at this
  cases this

theorem Augments.vacates (hm : Ready nLeft nRight m) {i : ℕ} (hv : m.matchForRight v = some i)
    (hi : m.distOf i = some (d + 1)) (h : Augments nLeft nRight (d + 1) i m m') :
    Vacates nLeft nRight d u v m m' := by
  have hleft := hm.inverse.right v i hv nofun
  refine ⟨hleft ▸ h.inverse, fun w => ?_, fun w => ?_, h.takes.trans hi (Takes.refl d u m')⟩
  · rw [h.matched w]
    refine ⟨fun hw => hw.elim (fun heq => ?_) id, .inr⟩
    rw [heq, hleft]
    rfl
  · refine (h.held w).imp_right fun hbeyond => ?_
    rcases hbeyond with rfl | ⟨k, hk, hlt⟩
    · exact ⟨d + 1, hi, Nat.lt_succ_self d⟩
    · exact ⟨k, hk, Nat.lt_of_succ_lt hlt⟩

theorem matchForLeft_set {i : ℕ} (hi : i < m.matchLeft.length) (r : List (Option ℕ)) (x : Option ℕ)
    (w : ℕ) : matchForLeft { m with matchRight := r, matchLeft := m.matchLeft.set i x } w =
      if w = i then x else m.matchForLeft w := by
  by_cases hw : i = w
  · subst hw
    simp [matchForLeft, List.getElem?_set_self hi]
  · rw [if_neg (Ne.symm hw)]
    simp [matchForLeft, List.getElem?_set_ne hw]

theorem matchForRight_set {j : ℕ} (hj : j < m.matchRight.length) (l : List (Option ℕ))
    (x : Option ℕ) (w : ℕ) :
    matchForRight { m with matchRight := m.matchRight.set j x, matchLeft := l } w =
      if w = j then x else m.matchForRight w := by
  by_cases hw : j = w
  · subst hw
    simp [matchForRight, List.getElem?_set_self hj]
  · rw [if_neg (Ne.symm hw)]
    simp [matchForRight, List.getElem?_set_ne hw]

/-- `u` takes the right node it has found one layer further. -/
theorem Vacates.take (hm : Ready nLeft nRight m) (hu : u < nLeft) (hv : v < nRight)
    (hd : m.distOf u = some d) (hnext : m.distOf (m.partner nLeft v) = some (d + 1))
    (h : Vacates nLeft nRight d u v m m₁) :
    Augments nLeft nRight d u m { m₁ with
      matchRight := m₁.matchRight.set v (some u)
      matchLeft := m₁.matchLeft.set u (some v) } := by
  have hul : u < m₁.matchLeft.length := h.inverse.lefts ▸ hu
  have hvr : v < m₁.matchRight.length := h.inverse.rights ▸ hv
  -- `v` is no right node `u` held: that one leads back to `u`, at its own distance
  have hother : m.matchForLeft u ≠ some v := fun hold => by
    rw [partner_eq, (hm.inverse.left u v hold).1, Option.getD_some, hd] at hnext
    exact absurd (Option.some.inj hnext) (Nat.ne_of_lt (Nat.lt_succ_self d))
  have hold : m₁.matchForLeft u = m.matchForLeft u := by
    rcases h.held u with heq | ⟨k, hk, hlt⟩
    · exact heq
    · rw [hd] at hk
      exact absurd (Option.some.inj hk ▸ hlt) (lt_irrefl _)
  refine ⟨⟨?_, ?_, h.inverse.dists, fun w v' hw => ?_, fun v' w hw hhole => ?_⟩, fun w => ?_,
    fun w => ?_, h.takes⟩
  · rw [List.length_set, h.inverse.lefts]
  · rw [List.length_set, h.inverse.rights]
  · rw [matchForLeft_set hul] at hw
    rw [matchForRight_set hvr]
    split at hw
    · rename_i heq
      cases hw
      exact ⟨by rw [if_pos rfl, heq], hother⟩
    · rename_i hne
      obtain ⟨hright, hhole⟩ := h.inverse.left w v' hw
      refine ⟨by rw [if_neg fun heq => hhole (congrArg some heq.symm), hright], fun hu' => ?_⟩
      rw [← hold] at hu'
      have := (h.inverse.left u v' hu').1
      rw [hright] at this
      exact hne (Option.some.inj this)
  · rw [matchForRight_set hvr] at hw
    rw [matchForLeft_set hul]
    split at hw
    · rename_i heq
      cases hw
      rw [if_pos rfl, heq]
    · rename_i hne
      have hw := h.inverse.right v' w hw fun heq => hne (Option.some.inj heq).symm
      rw [if_neg, hw]
      rintro rfl
      exact hhole (hold ▸ hw)
  · rw [matchForLeft_set hul]
    split
    · rename_i heq
      exact iff_of_true rfl (.inl heq)
    · rename_i hne
      rw [h.matched w]
      exact ⟨.inr, fun hw => hw.resolve_left hne⟩
  · rw [matchForLeft_set hul]
    split
    · rename_i heq
      exact .inr (.inl heq)
    · exact (h.held w).imp_right .inr

/-! ### The search -/

/-- The edges of a node in turn, for a search from the next layer that gives an outcome. -/
theorem dfsEdges_outcome {rec : ℕ → Matching → Bool × Matching}
    (hrec : ∀ i m, Ready nLeft nRight m → i < nLeft → m.distOf i = some (d + 1) →
      Outcome adj nLeft nRight (d + 1) i m (rec i m))
    (hsentinel : ∀ m, Ready nLeft nRight m → m.distOf nLeft = some (d + 1) →
      rec nLeft m = (true, m))
    (hadj : ∀ e ∈ adj.getD u [], e.1 < nRight) {es : List (ℕ × ℤ)}
    (hes : ∀ e ∈ es, e ∈ adj.getD u []) (hm : Ready nLeft nRight m) (hu : u < nLeft)
    (hd : m.distOf u = some d)
    (hdone : ∀ e ∈ adj.getD u [], e ∉ es → m.distOf (m.partner nLeft e.1) ≠ some (d + 1)) :
    Outcome adj nLeft nRight d u m (dfsEdges nLeft rec u es m) := by
  induction es generalizing m with
  | nil =>
    have hlt : u < m.dist.length := distOf_lt hd
    refine ⟨Poisons.node hu hd fun e he => hdone e he List.not_mem_nil, fun w => ?_, ?_⟩
    · rw [distOf_set hlt]
      split
      · rename_i heq
        exact .inr ⟨.inl heq, rfl⟩
      · exact .inl rfl
    · rw [distOf_set hlt, if_pos rfl]
  | cons e es ih =>
    have he := hes e List.mem_cons_self
    have htail : ∀ e ∈ es, e ∈ adj.getD u [] := fun e he => hes e (List.mem_cons_of_mem _ he)
    rw [dfsEdges]
    simp only [hd, Option.any_some, decide_eq_true_eq]
    split
    · rename_i hnext
      rcases (hm.partner_le e.1).lt_or_eq with hi | hfree
      · have hright : m.matchForRight e.1 = some (m.partner nLeft e.1) :=
          (partner_cases nLeft m e.1).resolve_left fun hn => absurd hn.2 hi.ne
        have hout := hrec _ m hm hi hnext
        split
        · rename_i m₁ hfound
          rw [hfound] at hout
          exact (hout.vacates hm hright hnext).take hm hu (hadj e he) hd hnext
        · rename_i m₁ hmissed
          rw [hmissed] at hout
          refine hout.outcome hnext (ih htail (hout.poisons.ready hm) (hout.nearer hnext hd)
            fun f hf hfes => ?_)
          rw [hout.poisons.partner]
          by_cases hef : f = e
          · rw [hef, hout.gone]
            exact (Option.some_ne_none _).symm
          · have hold := hdone f hf fun hmem => (List.mem_cons.mp hmem).elim hef hfes
            rcases hout.poisons.taken (m.partner nLeft f.1) with heq | hnone
            · rwa [heq]
            · rw [hnone]
              exact (Option.some_ne_none _).symm
      · rw [hfree, hsentinel m hm (hfree ▸ hnext)]
        exact (hm.vacates_free hfree).take hm hu (hadj e he) hd hnext
    · rename_i hskip
      refine ih htail hm hd fun f hf hfes => ?_
      by_cases hef : f = e
      · exact hef ▸ hskip
      · exact hdone f hf fun hmem => (List.mem_cons.mp hmem).elim hef hfes

/-- The search ends where a free right node was reached. -/
theorem dfs_sentinel {depth : ℕ} (hm : Ready nLeft nRight m) (hd : m.distOf nLeft = some d)
    (hdepth : nLeft < depth + d) : dfs adj nLeft depth nLeft m = (true, m) := by
  obtain ⟨depth, rfl⟩ := Nat.exists_eq_add_one_of_ne_zero
    (show depth ≠ 0 by have := hm.bounded nLeft _ hd; omega)
  rw [dfs, if_pos rfl]

/-- Distances grow by one from call to call and end at `nLeft`, so the rounds never run out. -/
theorem dfs_outcome (hadj : ∀ u, ∀ e ∈ adj.getD u [], e.1 < nRight) {depth : ℕ}
    (hm : Ready nLeft nRight m) (hu : u < nLeft) (hd : m.distOf u = some d)
    (hdepth : nLeft < depth + d) :
    Outcome adj nLeft nRight d u m (dfs adj nLeft depth u m) := by
  induction depth generalizing u m d with
  | zero => exact absurd (hm.bounded u d hd) (by omega)
  | succ depth ih =>
    rw [dfs, if_neg hu.ne]
    exact dfsEdges_outcome (fun i m hm hi hnext => ih hm hi hnext (by omega))
      (fun m hm hnext => dfs_sentinel hm hnext (by omega)) (hadj u) (fun _ he => he) hm hu hd
      fun e he hout => absurd he hout

/-- Searches that agree one layer further agree on the edges of a node. -/
theorem dfsEdges_congr {rec rec' : ℕ → Matching → Bool × Matching}
    (hrec : ∀ i m, Ready nLeft nRight m → i < nLeft → m.distOf i = some (d + 1) →
      Outcome adj nLeft nRight (d + 1) i m (rec i m))
    (hsame : ∀ i m, Ready nLeft nRight m → i ≤ nLeft → m.distOf i = some (d + 1) →
      rec i m = rec' i m)
    (hsentinel : ∀ m, Ready nLeft nRight m → m.distOf nLeft = some (d + 1) →
      rec nLeft m = (true, m))
    (es : List (ℕ × ℤ)) (hm : Ready nLeft nRight m) (hd : m.distOf u = some d) :
    dfsEdges nLeft rec u es m = dfsEdges nLeft rec' u es m := by
  induction es generalizing m with
  | nil => rfl
  | cons e es ih =>
    simp only [dfsEdges, hd, Option.any_some, decide_eq_true_eq]
    split
    · rename_i hnext
      rw [← hsame _ m hm (hm.partner_le e.1) hnext]
      split
      · rfl
      · rename_i m₁ hmissed
        rcases (hm.partner_le e.1).lt_or_eq with hi | hfree
        · have hout := hrec _ m hm hi hnext
          rw [hmissed] at hout
          exact ih (hout.poisons.ready hm) (hout.nearer hnext hd)
        · rw [hfree, hsentinel m hm (hfree ▸ hnext)] at hmissed
          cases hmissed
    · exact ih hm hd

/-- Rounds left over make no difference. -/
theorem dfs_depth (hadj : ∀ u, ∀ e ∈ adj.getD u [], e.1 < nRight) {depth depth' : ℕ}
    (hm : Ready nLeft nRight m) (hd : m.distOf u = some d) (hdepth : nLeft < depth + d)
    (hdepth' : nLeft < depth' + d) :
    dfs adj nLeft depth u m = dfs adj nLeft depth' u m := by
  have hle := hm.bounded u d hd
  induction depth generalizing depth' u m d with
  | zero => exact absurd hle (by omega)
  | succ depth ih =>
    obtain ⟨depth', rfl⟩ := Nat.exists_eq_add_one_of_ne_zero (show depth' ≠ 0 by omega)
    rw [dfs, dfs]
    split
    · rfl
    · exact dfsEdges_congr (fun i m hm hi hnext => dfs_outcome hadj hm hi hnext (by omega))
        (fun i m hm _ hnext => ih hm hnext (by omega) (by omega) (hm.bounded i _ hnext))
        (fun m hm hnext => dfs_sentinel hm hnext (by omega)) _ hm hd

end DrmCxx.Planes.Matching
