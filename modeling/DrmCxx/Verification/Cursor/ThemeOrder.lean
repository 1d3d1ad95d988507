import DrmCxx.Cursor.Theme
import DrmCxx.Lib.BreadthFirst
import DrmCxx.Lib.Run
import Mathlib.Algebra.Order.BigOperators.Group.List
import Mathlib.Algebra.Order.Ring.Nat

/-!
# The order in which themes are searched

The search looks into the themes in breadth-first order from the start, then from the default
theme, then in the order of discovery, and stops at the first that has the cursor.
-/

namespace DrmCxx.Cursor

namespace Index

variable (t : Index) (env : Env) (cursorName : String)

/-- What a name leads on to. -/
def parents (name : String) : List String :=
  match t.find? name with
  | none => []
  | some r => r.inherits

/-- Where the theme of a name has the cursor. -/
def provides (name : String) : Option CursorPath :=
  (t.find? name).bind (Record.tryDirs env cursorName)

variable {t env cursorName}

theorem find?_name {r : Record} (hr : r ∈ t.themes) : t.find? r.name = some r := by
  unfold find?
  cases hfind : t.themes.find? fun r' => r'.name = r.name with
  | none => exact absurd (List.find?_eq_none.mp hfind r hr) (by simp)
  | some r' =>
    have hname : r'.name = r.name := by simpa using List.find?_some hfind
    rw [List.inj_on_of_nodup_map t.names_nodup (List.mem_of_find?_eq_some hfind) hr hname]

theorem mem_names_or_parents_eq_nil (x : String) :
    x ∈ t.themes.map (·.name) ∨ t.parents x = [] := by
  rw [or_iff_not_imp_right]
  intro h
  unfold parents at h
  cases hfind : t.find? x with
  | none => rw [hfind] at h; exact absurd rfl h
  | some r =>
    have hname : r.name = x := by simpa using List.find?_some hfind
    exact List.mem_map.mpr ⟨r, List.mem_of_find?_eq_some hfind, hname⟩

/-! ### Scans -/

/-- The search goes through the names in order, up to the first that provides the cursor. -/
def Scanned (t : Index) (env : Env) (cursorName : String) (l : List String) (s s' : Search) :
    Prop :=
  (∃ before n after source, l = before ++ n :: after ∧
    (∀ m ∈ before, t.provides env cursorName m = none) ∧
      t.provides env cursorName n = some source ∧
        s'.chain = s.chain ++ before ++ [n] ∧ s'.hit = some (n, source)) ∨
  (∀ m ∈ l, t.provides env cursorName m = none) ∧ s'.chain = s.chain ++ l ∧ s'.hit = s.hit

theorem Scanned.nil (s : Search) : Scanned t env cursorName [] s s :=
  .inr ⟨nofun, by simp, rfl⟩

theorem Scanned.hit {n : String} {source : CursorPath} {s s' : Search}
    (hn : t.provides env cursorName n = some source) (hchain : s'.chain = s.chain ++ [n])
    (hhit : s'.hit = some (n, source)) (l : List String) :
    Scanned t env cursorName (n :: l) s s' :=
  .inl ⟨[], n, l, source, rfl, nofun, hn, by simpa using hchain, hhit⟩

theorem Scanned.cons {n : String} {l : List String} {s s₁ s' : Search}
    (h : Scanned t env cursorName l s₁ s') (hn : t.provides env cursorName n = none)
    (hchain : s₁.chain = s.chain ++ [n]) (hhit : s₁.hit = s.hit) :
    Scanned t env cursorName (n :: l) s s' := by
  rcases h with ⟨before, m, after, source, rfl, hbefore, hm, hc, hh⟩ | ⟨hl, hc, hh⟩
  · refine .inl ⟨n :: before, m, after, source, rfl, ?_, hm, by simp [hc, hchain], hh⟩
    exact List.forall_mem_cons.mpr ⟨hn, hbefore⟩
  · exact .inr ⟨List.forall_mem_cons.mpr ⟨hn, hl⟩, by simp [hc, hchain], hh.trans hhit⟩

/-- Behind a hit, the rest is not looked into. -/
theorem Scanned.stop {l : List String} {s s' : Search} (h : Scanned t env cursorName l s s')
    (hs : s.hit = none) (hs' : s'.hit.isSome) (l' : List String) :
    Scanned t env cursorName (l ++ l') s s' := by
  rcases h with ⟨before, m, after, source, rfl, hbefore, hm, hc, hh⟩ | ⟨-, -, hh⟩
  · exact .inl ⟨before, m, after ++ l', source, by simp, hbefore, hm, hc, hh⟩
  · rw [hh, hs] at hs'
    cases hs'

theorem Scanned.append {l l' : List String} {s s₁ s' : Search}
    (h : Scanned t env cursorName l s s₁) (hs₁ : s₁.hit = none)
    (h' : Scanned t env cursorName l' s₁ s') : Scanned t env cursorName (l ++ l') s s' := by
  rcases h with ⟨before, m, after, source, -, -, -, -, hh⟩ | ⟨hl, hc, hh⟩
  · rw [hs₁] at hh
    cases hh
  · rcases h' with ⟨before, m, after, source, rfl, hbefore, hm, hc', hh'⟩ | ⟨hl', hc', hh'⟩
    · refine .inl ⟨l ++ before, m, after, source, by simp, ?_, hm, by simp [hc, hc'], hh'⟩
      exact fun n hn => (List.mem_append.mp hn).elim (hl n) (hbefore n)
    · exact .inr ⟨fun n hn => (List.mem_append.mp hn).elim (hl n) (hl' n), by simp [hc, hc'],
        hh'.trans hh⟩

/-- Without a hit, everything was looked into. -/
theorem Scanned.chain_of_hit_eq_none {l : List String} {s s' : Search}
    (h : Scanned t env cursorName l s s') (hs' : s'.hit = none) : s'.chain = s.chain ++ l := by
  rcases h with ⟨before, m, after, source, -, -, -, -, hh⟩ | ⟨-, hc, -⟩
  · rw [hs'] at hh
    cases hh
  · exact hc

/-! ### The walks -/

variable (env cursorName) in
/-- A walk goes through the names in the order of the search with a queue. -/
theorem bfsLoop_scanned {fuel : ℕ} {queue l : List String} {s : Search}
    (hl : Lib.bfsQueue t.parents fuel queue s.visited = some l) :
    ∃ s', t.bfsLoop env cursorName fuel queue s = some s' ∧ Scanned t env cursorName l s s' := by
  induction fuel generalizing queue l s with
  | zero =>
    cases queue with
    | nil =>
      obtain rfl : [] = l := Option.some.inj hl
      exact ⟨s, rfl, .nil s⟩
    | cons cur queue => cases hl
  | succ fuel ih =>
    cases queue with
    | nil =>
      obtain rfl : [] = l := Option.some.inj hl
      exact ⟨s, rfl, .nil s⟩
    | cons cur queue =>
      rw [Lib.bfsQueue] at hl
      rw [bfsLoop]
      split_ifs at hl ⊢ with hcur
      · exact ih hl
      · obtain ⟨l', hl', rfl⟩ := Option.map_eq_some_iff.mp hl
        cases hfind : t.find? cur with
        | none =>
          have hnone : t.provides env cursorName cur = none := by rw [provides, hfind]; rfl
          rw [show t.parents cur = [] by rw [parents, hfind], List.append_nil] at hl'
          obtain ⟨s', hs', hscan⟩ :=
            ih (s := { s with visited := cur :: s.visited, chain := s.chain ++ [cur] }) hl'
          exact ⟨s', hs', hscan.cons hnone rfl rfl⟩
        | some r =>
          have hprov : t.provides env cursorName cur = r.tryDirs env cursorName := by
            rw [provides, hfind]; rfl
          rw [show t.parents cur = r.inherits by rw [parents, hfind]] at hl'
          dsimp only
          cases htry : r.tryDirs env cursorName with
          | some source => exact ⟨_, rfl, .hit (hprov.trans htry) rfl rfl l'⟩
          | none =>
            obtain ⟨s', hs', hscan⟩ :=
              ih (s := { s with visited := cur :: s.visited, chain := s.chain ++ [cur] }) hl'
            exact ⟨s', hs', hscan.cons (hprov.trans htry) rfl rfl⟩

/-- What was visited is what is in the chain. -/
theorem bfsLoop_visited {fuel : ℕ} {queue : List String} {s s' : Search}
    (hs : ∀ n, n ∈ s.visited ↔ n ∈ s.chain)
    (h : t.bfsLoop env cursorName fuel queue s = some s') : ∀ n, n ∈ s'.visited ↔ n ∈ s'.chain := by
  induction fuel generalizing queue s with
  | zero =>
    cases queue with
    | nil => exact Option.some.inj h ▸ hs
    | cons cur queue => cases h
  | succ fuel ih =>
    cases queue with
    | nil => exact Option.some.inj h ▸ hs
    | cons cur queue =>
      rw [bfsLoop] at h
      have hnext (n : String) : n ∈ cur :: s.visited ↔ n ∈ s.chain ++ [cur] := by
        rw [List.mem_cons, List.mem_append, List.mem_singleton, hs, or_comm]
      split at h
      · exact ih hs h
      · dsimp only at h
        split at h
        · exact ih hnext h
        · split at h
          · exact Option.some.inj h ▸ hnext
          · exact ih hnext h

/-- The fuel of a walk is enough. -/
theorem isSome_walk (root : String) (visited : List String) :
    ∃ l, Lib.bfsQueue t.parents t.walkFuel [root] visited = some l := by
  refine Option.isSome_iff_exists.mp
    (Lib.isSome_bfsQueue t.names_nodup mem_names_or_parents_eq_nil ?_)
  have hsum : Lib.remaining t.parents (t.themes.map (·.name)) visited ≤
      (t.themes.map fun r => r.inherits.length).sum := by
    have hmap : ((t.themes.map (·.name)).map fun u => (t.parents u).length) =
        t.themes.map fun r => r.inherits.length := by
      rw [List.map_map]
      exact List.map_congr_left fun r hr => by simp [parents, find?_name hr]
    rw [← hmap]
    exact (List.filter_sublist.map _).sum_le_sum fun _ _ => Nat.zero_le _
  rw [List.length_singleton, walkFuel]
  omega

variable (t env cursorName) in
theorem bfsAndMatch_scanned (root : String) {s : Search}
    (hs : ∀ n, n ∈ s.visited ↔ n ∈ s.chain) :
    ∃ s' l, t.bfsAndMatch env cursorName root s = some s' ∧
      Lib.BfsOrder t.parents s.chain [root] l ∧ Scanned t env cursorName l s s' ∧
        ∀ n, n ∈ s'.visited ↔ n ∈ s'.chain := by
  obtain ⟨l, hl⟩ := isSome_walk (t := t) root s.visited
  obtain ⟨s', hs', hscan⟩ := bfsLoop_scanned env cursorName hl
  exact ⟨s', l, hs', (Lib.bfsOrder_of_bfsQueue hl).congr hs, hscan, bfsLoop_visited hs hs'⟩

theorem provides_name {r : Record} (hr : r ∈ t.themes) :
    t.provides env cursorName r.name = r.tryDirs env cursorName := by
  rw [provides, find?_name hr]
  rfl

variable (env cursorName) in
/-- The fallback goes through the themes that were not looked into. -/
theorem scanLoop_scanned {rs : List Record} (hrs : ∀ r ∈ rs, r ∈ t.themes)
    (hnodup : (rs.map (·.name)).Nodup) (s : Search) :
    Scanned t env cursorName ((rs.map (·.name)).filter fun n => n ∉ s.chain) s
      (scanLoop env cursorName rs s) := by
  induction rs generalizing s with
  | nil => exact .nil s
  | cons r rs ih =>
    obtain ⟨hr, hrs⟩ := List.forall_mem_cons.mp hrs
    obtain ⟨hnew, hnodup⟩ := List.nodup_cons.mp hnodup
    rw [scanLoop, List.map_cons]
    by_cases hchain : r.name ∈ s.chain
    · rw [if_pos hchain, List.filter_cons_of_neg (by simpa using hchain)]
      exact ih hrs hnodup s
    · rw [if_neg hchain, List.filter_cons_of_pos (by simpa using hchain)]
      dsimp only
      cases htry : r.tryDirs env cursorName with
      | some source => exact .hit ((provides_name hr).trans htry) rfl rfl _
      | none =>
        have hscan := ih hrs hnodup { s with chain := s.chain ++ [r.name] }
        have hfilter : (rs.map (·.name)).filter (fun n => n ∉ s.chain ++ [r.name]) =
            (rs.map (·.name)).filter fun n => n ∉ s.chain :=
          List.filter_congr fun n hn => by
            have hne : n ≠ r.name := fun h => hnew (show r.name ∈ _ from h ▸ hn)
            simp [hne]
        exact (hfilter ▸ hscan).cons ((provides_name hr).trans htry) rfl rfl

/-! ### The whole search -/

/-- Breadth-first from the start, breadth-first from the default theme over what is left, and the
remaining themes as they were discovered. -/
def SearchOrder (t : Index) (start : String) (order : List String) : Prop :=
  ∃ named bridge, Lib.BfsOrder t.parents [] [start] named ∧
    Lib.BfsOrder t.parents named ["default"] bridge ∧
      order = named ++ bridge ++ (t.themes.map (·.name)).filter fun n => n ∉ named ++ bridge

theorem SearchOrder.nodup {start : String} {order : List String} (h : SearchOrder t start order) :
    order.Nodup := by
  obtain ⟨named, bridge, hnamed, hbridge, rfl⟩ := h
  refine List.nodup_append.mpr ⟨List.nodup_append.mpr ⟨hnamed.nodup, hbridge.nodup, ?_⟩,
    t.names_nodup.filter _, ?_⟩
  · rintro x hx y hy rfl
    exact hbridge.not_mem_seen hy hx
  · rintro x hx y hy rfl
    simpa [List.mem_append.mp hx] using (List.mem_filter.mp hy).2

/-- Every indexed theme has its turn. -/
theorem SearchOrder.name_mem {start : String} {order : List String} (h : SearchOrder t start order)
    {r : Record} (hr : r ∈ t.themes) : r.name ∈ order := by
  obtain ⟨named, bridge, -, -, rfl⟩ := h
  by_cases hmem : r.name ∈ named ++ bridge
  · exact List.mem_append_left _ hmem
  · exact List.mem_append_right _
      (List.mem_filter.mpr ⟨List.mem_map_of_mem hr, by simpa using hmem⟩)

theorem bfsOrder_of_mem {next : String → List String} {seen : List String} {x : String}
    (hx : x ∈ seen) : Lib.BfsOrder next seen [x] [] :=
  .nil (by simp [Lib.fresh, hx])

theorem root_mem {next : String → List String} {root : String} {l : List String}
    (h : Lib.BfsOrder next [] [root] l) : root ∈ l :=
  h.mem_iff.mpr ⟨0, List.mem_singleton.mpr rfl, List.not_mem_nil⟩

theorem search_scanned (t : Index) (env : Env) (cursorName preferredTheme : String) :
    ∃ s order, t.search env cursorName preferredTheme = some s ∧
      SearchOrder t (startTheme env preferredTheme) order ∧
        Scanned t env cursorName order {} s := by
  unfold search
  generalize startTheme env preferredTheme = start
  obtain ⟨s₁, named, hs₁, hnamed, hscan₁, hvis₁⟩ :=
    bfsAndMatch_scanned t env cursorName start (s := {}) (by simp)
  simp only [hs₁, Option.bind_eq_bind, Option.bind_some]
  by_cases hhit₁ : s₁.hit.isSome
  · obtain ⟨bridge, hbridge⟩ := isSome_walk (t := t) "default" named
    refine ⟨s₁, _, if_pos hhit₁, ⟨named, bridge, hnamed, Lib.bfsOrder_of_bfsQueue hbridge, rfl⟩, ?_⟩
    rw [List.append_assoc]
    exact hscan₁.stop rfl hhit₁ _
  · have hnone₁ : s₁.hit = none := by simpa using hhit₁
    have hchain₁ : s₁.chain = named := hscan₁.chain_of_hit_eq_none hnone₁
    -- the bridge is skipped only where it would visit nothing
    obtain ⟨s₂, bridge, hs₂, hbridge, hscan₂⟩ : ∃ s₂ bridge,
        t.bridge env cursorName start s₁ = some s₂ ∧
          Lib.BfsOrder t.parents named ["default"] bridge ∧
            Scanned t env cursorName bridge s₁ s₂ := by
      unfold Index.bridge
      split_ifs with hcond
      · obtain ⟨s₂, bridge, hs₂, hbridge, hscan₂, -⟩ :=
          bfsAndMatch_scanned t env cursorName "default" hvis₁
        exact ⟨s₂, bridge, hs₂, hchain₁ ▸ hbridge, hscan₂⟩
      · refine ⟨s₁, [], rfl, bfsOrder_of_mem ?_, .nil s₁⟩
        rw [not_and_or, not_not, not_not] at hcond
        rcases hcond with rfl | hcond
        · exact root_mem hnamed
        · exact hchain₁ ▸ (hvis₁ _).mp hcond
    rw [if_neg hhit₁, hs₂, Option.bind_some]
    by_cases hhit₂ : s₂.hit.isSome
    · exact ⟨s₂, _, if_pos hhit₂, ⟨named, bridge, hnamed, hbridge, rfl⟩,
        (hscan₁.append hnone₁ hscan₂).stop rfl hhit₂ _⟩
    · have hnone₂ : s₂.hit = none := by simpa using hhit₂
      have hchain₂ : s₂.chain = named ++ bridge := by
        rw [hscan₂.chain_of_hit_eq_none hnone₂, hchain₁]
      have hscan₃ := scanLoop_scanned env cursorName (fun r hr => hr)
        t.names_nodup s₂
      rw [hchain₂] at hscan₃
      exact ⟨_, _, if_neg hhit₂, ⟨named, bridge, hnamed, hbridge, rfl⟩,
        (hscan₁.append hnone₁ hscan₂).append hnone₂ hscan₃⟩

/-! ### Answers -/

/-- The first theme in the order that has the cursor, with the themes looked into. -/
def FirstHit (t : Index) (env : Env) (cursorName : String) (order : List String) (r : Resolved) :
    Prop :=
  (∃ before n after source, order = before ++ n :: after ∧
    (∀ m ∈ before, t.provides env cursorName m = none) ∧
      t.provides env cursorName n = some source ∧ r = .ok ⟨n, source, before ++ [n]⟩) ∨
  (∀ m ∈ order, t.provides env cursorName m = none) ∧ r = .error noSuchFileOrDirectory

theorem Scanned.firstHit {order : List String} {s : Search}
    (h : Scanned t env cursorName order {} s) : FirstHit t env cursorName order s.result := by
  rcases h with ⟨before, n, after, source, ho, hbefore, hn, hc, hh⟩ | ⟨hl, -, hh⟩
  · exact .inl ⟨before, n, after, source, ho, hbefore, hn, by simp [Search.result, hh, hc]⟩
  · exact .inr ⟨hl, by simp [Search.result, hh]⟩

/-- The themes looked into are the first of the order. -/
theorem Scanned.chain_first {order : List String} {s : Search}
    (h : Scanned t env cursorName order {} s) : s.chain <+: order := by
  rcases h with ⟨before, n, after, source, rfl, -, -, hc, -⟩ | ⟨-, hc, -⟩
  · exact ⟨after, by simp [hc]⟩
  · exact ⟨[], by simp [hc]⟩

/-- The answer to a name that is not refused. -/
structure Answers (t : Index) (env : Env) (cursorName preferredTheme : String) (r : Resolved) :
    Prop where
  searched : ∃ s order, t.search env cursorName preferredTheme = some s ∧ r = s.result ∧
    SearchOrder t (startTheme env preferredTheme) order ∧ order.Nodup ∧ s.chain <+: order ∧
      FirstHit t env cursorName order r
  fails_iff : (∃ e, r = .error e) ↔ ∀ rec ∈ t.themes, rec.tryDirs env cursorName = none

theorem FirstHit.fails_iff {start : String} {order : List String} {r : Resolved}
    (h : FirstHit t env cursorName order r) (horder : SearchOrder t start order) :
    (∃ e, r = .error e) ↔ ∀ rec ∈ t.themes, rec.tryDirs env cursorName = none := by
  rcases h with ⟨before, n, after, source, -, -, hn, rfl⟩ | ⟨hnone, rfl⟩
  · refine ⟨fun ⟨e, he⟩ => (by cases he), fun h => ?_⟩
    -- the theme of the hit is indexed
    unfold provides at hn
    obtain ⟨rec, hrec, htry⟩ := Option.bind_eq_some_iff.mp hn
    rw [h rec (List.mem_of_find?_eq_some hrec)] at htry
    cases htry
  · refine ⟨fun _ rec hrec => ?_, fun _ => ⟨_, rfl⟩⟩
    rw [← provides_name hrec]
    exact hnone _ (horder.name_mem hrec)

theorem search_answers (t : Index) (env : Env) (cursorName preferredTheme : String) :
    ∃ s, t.search env cursorName preferredTheme = some s ∧
      Answers t env cursorName preferredTheme s.result := by
  obtain ⟨s, order, hs, horder, hscan⟩ := search_scanned t env cursorName preferredTheme
  exact ⟨s, hs, ⟨s, order, hs, rfl, horder, horder.nodup, hscan.chain_first, hscan.firstHit⟩,
    hscan.firstHit.fails_iff horder⟩

end Index

/-! ### Memoised answers -/

namespace Theme

variable {t : Theme} {env : Env}

/-- Every answer kept is the one that a search gives. -/
def Memoises (env : Env) (t : Theme) : Prop :=
  ∀ key r, t.resolveCache.find? key = some r →
    ∃ s, t.index.search env key.cursorName key.preferredTheme = some s ∧ r = s.result

/-- What a resolution answers. -/
def Resolves (env : Env) (index : Index) (cursorName preferredTheme : String) (r : Resolved) :
    Prop :=
  if refusesName cursorName then r = .error .invalidArgument
  else index.Answers env cursorName preferredTheme r

theorem Memoises.resolve (ht : t.Memoises env) (cursorName preferredTheme : String) :
    ∃ t' r, t.resolve env cursorName preferredTheme = some (t', r) ∧ t'.index = t.index ∧
      t'.Memoises env ∧ Resolves env t.index cursorName preferredTheme r := by
  unfold Theme.resolve Resolves
  split_ifs with hrefuse
  · exact ⟨t, _, rfl, rfl, ht, rfl⟩
  · obtain ⟨s, hs, hanswers⟩ := t.index.search_answers env cursorName preferredTheme
    dsimp only
    cases hfind : t.resolveCache.find? ⟨cursorName, preferredTheme⟩ with
    | some r =>
      obtain ⟨s', hs', rfl⟩ := ht _ _ hfind
      obtain rfl := Option.some.inj (hs.symm.trans hs')
      exact ⟨t, _, rfl, rfl, ht, hanswers⟩
    | none =>
      rw [hs]
      refine ⟨_, _, rfl, rfl, ?_, hanswers⟩
      intro key r hr
      dsimp only at hr
      rw [Lib.Table.find?_insertOrAssign] at hr
      split_ifs at hr with hkey
      · rw [hkey, ← Option.some.inj hr]
        exact ⟨s, hs, rfl⟩
      · exact ht key r hr

theorem memoises_empty (env : Env) (index : Index) : Memoises env ⟨index, .empty⟩ :=
  fun _ _ h => by simp [Lib.Table.find?, Lib.Table.empty] at h

/-- A call of a run, for a name and a preferred theme. -/
def step (env : Env) (t : Theme) (call : String × String) : Theme :=
  ((t.resolve env call.1 call.2).map Prod.fst).getD t

/-- The call returns what it would on its own, and that is the first hit in the order. -/
def AnswersAsFresh (env : Env) (index : Index) (t : Theme) (call : String × String) : Prop :=
  ∃ r, (t.resolve env call.1 call.2).map Prod.snd = some r ∧
    ((Theme.mk index .empty).resolve env call.1 call.2).map Prod.snd = some r ∧
      Resolves env index call.1 call.2 r

theorem Resolves.unique {index : Index} {cursorName preferredTheme : String} {r r' : Resolved}
    (h : Resolves env index cursorName preferredTheme r)
    (h' : Resolves env index cursorName preferredTheme r') : r = r' := by
  unfold Resolves at h h'
  split_ifs at h h'
  · rw [h, h']
  · obtain ⟨s, -, hs, rfl, -⟩ := h.searched
    obtain ⟨s', -, hs', rfl, -⟩ := h'.searched
    rw [Option.some.inj (hs.symm.trans hs')]

end Theme

end DrmCxx.Cursor
