import DrmCxx.Errc
import DrmCxx.Lib.Table
import Mathlib.Algebra.BigOperators.Group.List.Basic
import Mathlib.Algebra.GroupWithZero.Nat

/-!
# Cursor themes

The index of the themes on disk, and the resolution of a cursor name: along the inherited themes,
then along those of the default theme, then in the order of discovery. Answers are memoised.
-/

namespace DrmCxx.Cursor

open Lib (Table)

/-! ### Aliases -/

/-- Names that stand for one another. -/
def aliasClasses : List (List String) := [
  ["default", "left_ptr", "top_left_arrow", "arrow"],
  ["pointer", "hand", "hand1", "hand2", "pointing_hand", "9d800788f1b08800ae810202380a0822",
    "e29285e634086352946a0e7090d73106"],
  ["text", "xterm", "ibeam"],
  ["crosshair", "cross", "tcross"],
  ["wait", "watch"],
  ["progress", "left_ptr_watch", "half-busy", "3ecb610c1bf2410f44200f48c40d3599",
    "08e8e1c95fe2fc01f976f1e063a24ccd"],
  ["not-allowed", "crossed_circle", "forbidden", "03b6e0fcb3499374a867c041f52298f0"],
  ["grab", "openhand", "9141b49c8149039304290b508d208c40", "f2d0232ec7c4c06e79e2a2a5ebcb6a43"],
  ["grabbing", "closedhand", "208530c400c041818281048008011002",
    "fcf21c00b30f7e3f83fe0dfd12e71cff"],
  ["help", "question_arrow", "whats_this", "left_ptr_help", "d9ce0ab605698f320427677b458ad60b"],
  ["move", "fleur", "all-scroll"],
  ["col-resize", "ew-resize", "sb_h_double_arrow", "h_double_arrow",
    "14fef782d02440884392942c11205230", "028006030e0e7ebffc7f7070c0600140"],
  ["row-resize", "ns-resize", "sb_v_double_arrow", "v_double_arrow",
    "2870a09082c103050810ffdffffe0204", "00008160000006810000408080010102"],
  ["n-resize", "top_side"],
  ["s-resize", "bottom_side"],
  ["e-resize", "right_side"],
  ["w-resize", "left_side"],
  ["ne-resize", "top_right_corner", "ur_angle"],
  ["nw-resize", "top_left_corner", "ul_angle"],
  ["se-resize", "bottom_right_corner", "lr_angle"],
  ["sw-resize", "bottom_left_corner", "ll_angle"],
  ["nesw-resize", "fd_double_arrow"],
  ["nwse-resize", "bd_double_arrow"],
  ["zoom-in", "magnifier"],
  ["zoom-out"],
  ["copy", "dnd-copy", "1081e37283d90000800003c07f3ef6bf"],
  ["alias", "link", "dnd-link", "0876e1c15ff2fc01f5c56f42a6e9db1c"],
  ["no-drop", "circle", "dnd-none"],
  ["cell", "plus"],
  ["vertical-text"],
  ["context-menu"]]

/-- The names that `for_each_alias` goes through. -/
def aliasesOf (name : String) : List String :=
  match aliasClasses.find? fun cls => cls.contains name with
  | some cls => cls
  | none => [name]

/-! ### The index -/

/-- A theme, with the directories that provide it in the order of the search paths. -/
structure Record where
  name : String
  dirs : List String
  inherits : List String := []
  deriving DecidableEq, Repr

/-- The path `dir / "cursors" / file`. -/
structure CursorPath where
  dir : String
  file : String
  deriving DecidableEq, Repr

/-- Which paths exist, and the value of `XCURSOR_THEME`. -/
structure Env where
  pathExists : CursorPath → Bool
  xcursorTheme : Option String := none

structure ThemeResolution where
  themeName : String
  source : CursorPath
  chain : List String
  deriving DecidableEq, Repr

def noSuchFileOrDirectory : Errc := .other 2

abbrev Resolved := Except Errc ThemeResolution

structure CacheKey where
  cursorName : String
  preferredTheme : String
  deriving DecidableEq, Repr

/-- The themes in the order of their discovery; `by_name` finds each by its name. -/
structure Index where
  themes : List Record
  names_nodup : (themes.map (·.name)).Nodup

namespace Index

variable (t : Index)

/-- `by_name.find`. -/
def find? (name : String) : Option Record := t.themes.find? fun r => r.name = name

end Index

/-! ### Looking into a theme -/

/-- `try_cursors_dir`: the first alias on disk. -/
def tryCursorsDir (env : Env) (cursorName dir : String) : Option CursorPath :=
  ((aliasesOf cursorName).map fun a => CursorPath.mk dir a).find? env.pathExists

/-- The first directory of the theme with a hit. -/
def Record.tryDirs (env : Env) (cursorName : String) (r : Record) : Option CursorPath :=
  r.dirs.findSome? (tryCursorsDir env cursorName)

/-! ### The search -/

/-- The locals of the search that its parts share. -/
structure Search where
  chain : List String := []
  visited : List String := []
  hit : Option (String × CursorPath) := none

namespace Index

variable (t : Index) (env : Env) (cursorName : String)

/-- The loop of `bfs_and_match`; without fuel it would not end. -/
def bfsLoop : ℕ → List String → Search → Option Search
  | _, [], s => some s
  | 0, _ :: _, _ => none
  | fuel + 1, cur :: queue, s =>
    if cur ∈ s.visited then bfsLoop fuel queue s
    else
      let s := { s with visited := cur :: s.visited, chain := s.chain ++ [cur] }
      match t.find? cur with
      | none => bfsLoop fuel queue s
      | some r =>
        match r.tryDirs env cursorName with
        | some source => some { s with hit := some (cur, source) }
        | none => bfsLoop fuel (queue ++ r.inherits) s

/-- A walk queues its root, and what each theme inherits at most once. -/
def walkFuel : ℕ := 1 + (t.themes.map fun r => r.inherits.length).sum

def bfsAndMatch (root : String) (s : Search) : Option Search :=
  t.bfsLoop env cursorName t.walkFuel [root] s

/-- The walk from the default theme, unless it was visited. -/
def bridge (start : String) (s : Search) : Option Search :=
  if start ≠ "default" ∧ "default" ∉ s.visited then t.bfsAndMatch env cursorName "default" s
  else some s

/-- The fallback, over the themes in the order of discovery. -/
def scanLoop : List Record → Search → Search
  | [], s => s
  | r :: rs, s =>
    if r.name ∈ s.chain then scanLoop rs s
    else
      let s' := { s with chain := s.chain ++ [r.name] }
      match r.tryDirs env cursorName with
      | some source => { s' with hit := some (r.name, source) }
      | none => scanLoop rs s'

/-- The effective starting theme. -/
def startTheme (preferredTheme : String) : String :=
  let start := preferredTheme
  let start := if start = "" then env.xcursorTheme.getD "" else start
  if start = "" then "default" else start

/-- What follows the look into the cache. -/
def search (preferredTheme : String) : Option Search := do
  let start := startTheme env preferredTheme
  let s ← t.bfsAndMatch env cursorName start {}
  if s.hit.isSome then some s
  else
    let s ← t.bridge env cursorName start s
    if s.hit.isSome then some s
    else some (scanLoop env cursorName t.themes s)

end Index

def Search.result (s : Search) : Resolved :=
  match s.hit with
  | some (themeName, source) => .ok { themeName, source, chain := s.chain }
  | none => .error noSuchFileOrDirectory

/-! ### Resolving -/

/-- Names that are refused, since they could be paths. -/
def refusesName (cursorName : String) : Bool :=
  cursorName = "" || cursorName = "." || cursorName = ".." ||
    cursorName.toList.contains '/' || cursorName.toList.contains '\\'

structure Theme where
  index : Index
  resolveCache : Table CacheKey Resolved := .empty

def Theme.resolve (t : Theme) (env : Env) (cursorName preferredTheme : String) :
    Option (Theme × Resolved) :=
  if refusesName cursorName then some (t, .error .invalidArgument)
  else
    let key : CacheKey := ⟨cursorName, preferredTheme⟩
    match t.resolveCache.find? key with
    | some result => some (t, result)
    | none => do
      let s ← t.index.search env cursorName preferredTheme
      some ({ t with resolveCache := t.resolveCache.insertOrAssign key s.result }, s.result)

end DrmCxx.Cursor
