import Mathlib.Data.List.Chain
import Mathlib.Data.List.Perm.Basic

/-!
# Clients bound to resources

A server binds each of its clients to one resource at a time and unbinds it again; a reset takes
whatever the client holds. The server keeps a table of what its clients hold. A ledger sets the
table against the log of the calls: who is in the table holds what its calls say, and who left it
holds nothing.
-/

namespace DrmCxx.Lib

variable {α β : Type*}

/-! ### The calls on one client -/

/-- A call on a client. -/
inductive BindCall (β : Type*)
  | bind (r : β)
  | unbind (r : β)
  | reset
  deriving DecidableEq, Repr

namespace BindCall

/-- What may follow a call: what is bound is unbound or reset, once, before it is bound again. -/
inductive Follows : BindCall β → BindCall β → Prop
  | unbound (r : β) : Follows (.bind r) (.unbind r)
  | reset (c : BindCall β) : Follows c .reset
  | boundAgain (r r' : β) : Follows (.unbind r) (.bind r')
  | bound (r : β) : Follows .reset (.bind r)

/-- What the client holds after the call. -/
def held : BindCall β → Option β
  | bind r => some r
  | unbind _ | reset => none

/-- A call by which a client goes from holding `r` to holding `r'`. -/
inductive Turns : Option β → BindCall β → Option β → Prop
  | bind (r : β) : Turns none (.bind r) (some r)
  | unbind (r : β) : Turns (some r) (.unbind r) none
  | reset (r : Option β) : Turns r .reset none

theorem Turns.held_eq {r r' : Option β} {c : BindCall β} (h : Turns r c r') : c.held = r' := by
  cases h <;> rfl

theorem Turns.follows {r r' : Option β} {c d : BindCall β} (h : Turns r c r') (hd : d.held = r) :
    Follows d c := by
  cases h with
  | bind r =>
    cases d with
    | bind _ => cases hd
    | unbind _ => exact .boundAgain _ _
    | reset => exact .bound _
  | unbind r =>
    cases d with
    | bind _ => cases hd; exact .unbound _
    | unbind _ | reset => cases hd
  | reset r => exact .reset d

end BindCall

open BindCall (Follows Turns)

/-- Every binding of the log is undone once, by its own unbinding or by a reset, before the next
one, and nothing else is unbound. -/
def Paired (log : List (BindCall β)) : Prop := (BindCall.reset :: log).IsChain Follows

/-- The client was bound to `r` and since then neither unbound nor reset. -/
def BoundTo (log : List (BindCall β)) (r : β) : Prop :=
  ∃ before after, log = before ++ .bind r :: after ∧ .unbind r ∉ after ∧ .reset ∉ after

/-- The calls are paired and leave the client holding `r`. -/
structure Agrees (log : List (BindCall β)) (r : Option β) : Prop where
  paired : Paired log
  held : ((BindCall.reset :: log).getLast (List.cons_ne_nil _ _)).held = r

namespace Agrees

variable {log : List (BindCall β)} {r r' : Option β}

theorem nil : Agrees ([] : List (BindCall β)) none := ⟨List.isChain_singleton _, rfl⟩

theorem turn {c : BindCall β} (h : Agrees log r) (hc : Turns r c r') : Agrees (log ++ [c]) r' where
  paired := by
    rw [Paired, ← List.cons_append, List.isChain_append]
    refine ⟨h.paired, List.isChain_singleton _, fun d hd e he => ?_⟩
    rw [List.head?_cons, Option.mem_some_iff] at he
    rw [List.getLast?_eq_getLast_of_ne_nil (List.cons_ne_nil _ _), Option.mem_some_iff] at hd
    subst hd he
    exact hc.follows h.held
  held := by simpa [List.getLast_append_of_ne_nil] using hc.held_eq

/-- What the table says of a client is what its calls say. -/
theorem boundTo_iff (h : Agrees log r) (p : β) : BoundTo log p ↔ r = some p := by
  constructor
  · rintro ⟨before, after, rfl, hunbind, hreset⟩
    have hafter : after = [] := by
      cases after with
      | nil => rfl
      | cons c rest =>
        have hchain := h.paired
        rw [Paired, ← List.cons_append, List.isChain_append] at hchain
        cases (List.isChain_cons_cons.mp hchain.2.1).1 with
        | unbound => exact absurd (List.mem_cons_self ..) hunbind
        | reset => exact absurd (List.mem_cons_self ..) hreset
    subst hafter
    simpa [BindCall.held] using h.held.symm
  · rintro rfl
    rcases List.eq_nil_or_concat log with rfl | ⟨before, c, rfl⟩
    · cases h.held
    · have hheld : c.held = some p := by simpa using h.held
      cases c with
      | bind q =>
        cases hheld
        exact ⟨before, [], by simp, List.not_mem_nil, List.not_mem_nil⟩
      | unbind _ | reset => cases hheld

end Agrees

/-! ### The ledger -/

/-- What the server's table says of its clients, with the calls it made. -/
structure Ledger (α β : Type*) where
  table : List (α × Option β)
  log : List (α × BindCall β) := []
  /-- Clients whose entries were changed without a call. -/
  exempt : List α := []

namespace Ledger

/-- A round of calls over a table: each client in turn is called once, or not at all. -/
inductive Round : List (α × Option β) → List (α × BindCall β) → List (α × Option β) → Prop
  | nil : Round [] [] []
  | skip (e : α × Option β) {table calls table'} :
      Round table calls table' → Round (e :: table) calls (e :: table')
  | call (a : α) {r r' : Option β} {c : BindCall β} {table calls table'} :
      Turns r c r' → Round table calls table' →
        Round ((a, r) :: table) ((a, c) :: calls) ((a, r') :: table')

namespace Round

variable {table table' : List (α × Option β)} {calls : List (α × BindCall β)}

/-- Nobody is called. -/
theorem refl (table : List (α × Option β)) : Round table [] table := by
  induction table with
  | nil => exact .nil
  | cons e table ih => exact .skip e ih

/-- One round after another. -/
theorem append {more more' : List (α × Option β)} {moreCalls : List (α × BindCall β)}
    (h : Round table calls table') (hmore : Round more moreCalls more') :
    Round (table ++ more) (calls ++ moreCalls) (table' ++ more') := by
  induction h with
  | nil => exact hmore
  | skip e _ ih => exact .skip e ih
  | call a hturn _ ih => exact .call a hturn ih

/-- A round in which every item has at most one line and one call. -/
theorem filterMap {γ : Type*} {entry entry' : γ → Option (α × Option β)}
    {call : γ → Option (α × BindCall β)} {xs : List γ}
    (h : ∀ x ∈ xs, Round (entry x).toList (call x).toList (entry' x).toList) :
    Round (xs.filterMap entry) (xs.filterMap call) (xs.filterMap entry') := by
  simp only [List.filterMap_eq_flatMap_toList]
  induction xs with
  | nil => exact .nil
  | cons x xs ih =>
    simp only [List.flatMap_cons]
    exact (h x List.mem_cons_self).append (ih fun y hy => h y (List.mem_cons_of_mem _ hy))

theorem keys (h : Round table calls table') : table'.map Prod.fst = table.map Prod.fst := by
  induction h with
  | nil => rfl
  | skip e _ ih => rw [List.map_cons, List.map_cons, ih]
  | call a _ _ ih => rw [List.map_cons, List.map_cons, ih]

theorem calls_subset (h : Round table calls table') :
    calls.map Prod.fst ⊆ table.map Prod.fst := by
  induction h with
  | nil => exact List.Subset.refl _
  | skip e _ ih => exact fun a ha => List.mem_cons_of_mem _ (ih ha)
  | call a _ _ ih => exact List.cons_subset_cons a ih

end Round

section Calls

variable [DecidableEq α]

/-- The calls of a log on one client. -/
def callsOn (log : List (α × BindCall β)) (a : α) : List (BindCall β) :=
  (log.filter (·.1 = a)).map Prod.snd

theorem callsOn_append (log calls : List (α × BindCall β)) (a : α) :
    callsOn (log ++ calls) a = callsOn log a ++ callsOn calls a := by
  rw [callsOn, List.filter_append, List.map_append, callsOn, callsOn]

theorem callsOn_of_not_mem {calls : List (α × BindCall β)} {a : α}
    (h : a ∉ calls.map Prod.fst) : callsOn calls a = [] := by
  rw [callsOn, List.map_eq_nil_iff, List.filter_eq_nil_iff]
  intro e he hea
  exact h (of_decide_eq_true hea ▸ List.mem_map_of_mem he)

theorem callsOn_cons (e : α × BindCall β) (calls : List (α × BindCall β)) (a : α) :
    callsOn (e :: calls) a = if e.1 = a then e.2 :: callsOn calls a else callsOn calls a := by
  rw [callsOn, List.filter_cons]
  by_cases h : e.1 = a
  · rw [if_pos h, if_pos (decide_eq_true h), List.map_cons, callsOn]
  · rw [if_neg h, if_neg (by simpa using h), callsOn]

/-- What a round makes of one client agrees with the calls on it. -/
theorem Round.agrees {table table' : List (α × Option β)} {calls : List (α × BindCall β)}
    (h : Round table calls table') (hnodup : (table.map Prod.fst).Nodup) {a : α} {r' : Option β}
    (hmem : (a, r') ∈ table') :
    ∃ r, (a, r) ∈ table ∧ ∀ log, Agrees log r → Agrees (log ++ callsOn calls a) r' := by
  induction h with
  | nil => cases hmem
  | skip e h ih =>
    rw [List.map_cons, List.nodup_cons] at hnodup
    rcases List.mem_cons.mp hmem with heq | hmem
    · subst heq
      refine ⟨r', List.mem_cons_self .., fun log hlog => ?_⟩
      rw [callsOn_of_not_mem fun hc => hnodup.1 (h.calls_subset hc), List.append_nil]
      exact hlog
    · obtain ⟨r, hr, hagrees⟩ := ih hnodup.2 hmem
      exact ⟨r, List.mem_cons_of_mem _ hr, hagrees⟩
  | call b hturns h ih =>
    rw [List.map_cons, List.nodup_cons] at hnodup
    rcases List.mem_cons.mp hmem with heq | hmem
    · cases heq
      refine ⟨_, List.mem_cons_self .., fun log hlog => ?_⟩
      rw [callsOn_cons, if_pos rfl, callsOn_of_not_mem fun hc => hnodup.1 (h.calls_subset hc)]
      exact hlog.turn hturns
    · obtain ⟨r, hr, hagrees⟩ := ih hnodup.2 hmem
      have hne : b ≠ a := fun heq =>
        hnodup.1 (by rw [← h.keys, heq]; exact List.mem_map.mpr ⟨_, hmem, rfl⟩)
      refine ⟨r, List.mem_cons_of_mem _ hr, fun log hlog => ?_⟩
      rw [callsOn_cons, if_neg hne]
      exact hagrees log hlog

/-- The table and the log agree, and no resource is held twice. -/
structure Sound (l : Ledger α β) : Prop where
  nodup : (l.table.map Prod.fst).Nodup
  exclusive : (l.table.filterMap Prod.snd).Nodup
  kept : ∀ a r, (a, r) ∈ l.table → a ∉ l.exempt → Agrees (callsOn l.log a) r
  left : ∀ a ∉ l.table.map Prod.fst, a ∉ l.exempt → Agrees (callsOn l.log a) none

namespace Sound

variable {l : Ledger α β}

theorem perm (h : l.Sound) {table : List (α × Option β)} (hp : table.Perm l.table) :
    ({ l with table } : Ledger α β).Sound where
  nodup := (hp.map Prod.fst).nodup_iff.mpr h.nodup
  exclusive := (hp.filterMap Prod.snd).nodup_iff.mpr h.exclusive
  kept a r hmem := h.kept a r (hp.mem_iff.mp hmem)
  left a hleft := h.left a fun hmem => hleft ((hp.map Prod.fst).mem_iff.mpr hmem)

/-- A client that holds nothing joins. -/
theorem join (h : l.Sound) {a : α} (hnew : a ∉ l.table.map Prod.fst) :
    ({ l with table := (a, none) :: l.table } : Ledger α β).Sound where
  nodup := List.nodup_cons.mpr ⟨hnew, h.nodup⟩
  exclusive := h.exclusive
  kept b r hmem hexempt := by
    rcases List.mem_cons.mp hmem with heq | hmem
    · cases heq
      exact h.left a hnew hexempt
    · exact h.kept b r hmem hexempt
  left b hleft := h.left b fun hmem => hleft (List.mem_cons_of_mem _ hmem)

/-- A client that holds nothing leaves. -/
theorem leave {a : α} {table : List (α × Option β)} (h : l.Sound)
    (htable : l.table = (a, none) :: table) : ({ l with table } : Ledger α β).Sound where
  nodup := by
    have hnodup := h.nodup
    rw [htable, List.map_cons, List.nodup_cons] at hnodup
    exact hnodup.2
  exclusive := by
    have hexclusive := h.exclusive
    rwa [htable] at hexclusive
  kept b r hmem := h.kept b r (htable ▸ List.mem_cons_of_mem _ hmem)
  left b hleft hexempt := by
    by_cases hb : b = a
    · rw [hb] at hexempt ⊢
      exact h.kept a none (htable ▸ List.mem_cons_self ..) hexempt
    · refine h.left b (fun hmem => hleft ?_) hexempt
      rw [htable, List.map_cons, List.mem_cons] at hmem
      exact hmem.resolve_left hb

/-- Another client takes over what one held, without a call. Neither is answered for any more. -/
theorem takeOver {a b : α} {r : Option β} {table : List (α × Option β)} (h : l.Sound)
    (htable : l.table = (a, r) :: table) (hnew : b ∉ l.table.map Prod.fst) :
    ({ l with table := (b, r) :: table, exempt := b :: a :: l.exempt } : Ledger α β).Sound where
  nodup := by
    have hnodup := h.nodup
    rw [htable, List.map_cons, List.nodup_cons] at hnodup
    rw [htable, List.map_cons, List.mem_cons, not_or] at hnew
    exact List.nodup_cons.mpr ⟨hnew.2, hnodup.2⟩
  exclusive := by
    have hexclusive := h.exclusive
    rwa [htable] at hexclusive
  kept c q hmem hexempt := by
    rw [List.mem_cons, List.mem_cons, not_or, not_or] at hexempt
    rcases List.mem_cons.mp hmem with heq | hmem
    · cases heq
      exact absurd rfl hexempt.1
    · exact h.kept c q (htable ▸ List.mem_cons_of_mem _ hmem) hexempt.2.2
  left c hleft hexempt := by
    rw [List.mem_cons, List.mem_cons, not_or, not_or] at hexempt
    refine h.left c (fun hmem => hleft (List.mem_cons_of_mem _ ?_)) hexempt.2.2
    rw [htable, List.map_cons, List.mem_cons] at hmem
    exact hmem.resolve_left hexempt.2.1

/-- A client that holds nothing makes way for another. -/
theorem exchange {a b : α} {table : List (α × Option β)} (h : l.Sound)
    (htable : l.table = (a, none) :: table) (hnew : b ∉ l.table.map Prod.fst) :
    ({ l with table := (b, none) :: table } : Ledger α β).Sound :=
  (h.leave htable).join fun hmem => hnew (by rw [htable]; exact List.mem_cons_of_mem _ hmem)

end Sound

/-- A round of calls. -/
theorem Sound.round {l : Ledger α β} {table : List (α × Option β)} {calls : List (α × BindCall β)}
    (h : l.Sound) (hround : Round l.table calls table)
    (hexclusive : (table.filterMap Prod.snd).Nodup) :
    ({ l with table, log := l.log ++ calls } : Ledger α β).Sound := by
  refine ⟨by rw [hround.keys]; exact h.nodup, hexclusive, fun a r hmem hexempt => ?_,
    fun a hleft hexempt => ?_⟩
  · obtain ⟨q, hq, hagrees⟩ := hround.agrees h.nodup hmem
    rw [callsOn_append]
    exact hagrees _ (h.kept a q hq hexempt)
  · have hleft : a ∉ l.table.map Prod.fst := by rw [← hround.keys]; exact hleft
    rw [callsOn_append, callsOn_of_not_mem fun hc => hleft (hround.calls_subset hc),
      List.append_nil]
    exact h.left a hleft hexempt

end Calls

end Ledger

end DrmCxx.Lib
