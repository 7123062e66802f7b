import PatchReview.Text.Quoted
import PatchReview.Tree.Basic

/-!
# Where a path leads

Names are followed one after another from a location; two points lead back, and a link leads where its
text says, seen from the directory it stands in. There are two ways to follow. `Tree.walk` takes a
name at which nothing stands as it is written, so it always ends somewhere. `Tree.follow` is what
opening a file does: every name on the way has to be that of a directory.

Both carry the links that are not being followed yet. A link that is met again while it is being
followed leads in a circle, and since each step into a link takes one away, both end. A walk that meets
a circle follows no more links: the link and what is left over are taken by their text, so links may
still stand on the way to where it ends.
-/

namespace PatchReview

/-- Why a path does not lead to a location. -/
inductive PathFault where
  | circle (path : Path)
  | zeroCharacter
deriving DecidableEq, Repr

/-- What is wrong with the path, in words. -/
def PathFault.message : PathFault → String
  | .circle p => "Symlink loop from " ++ Text.quoted p.text
  | .zeroCharacter => "embedded null byte"

/-- The end of a walk: a location, a link that leads in a circle with what is left over joined to it, or
    a name that no file can have. -/
inductive Walk where
  | reached (location : Location)
  | circling (path : Path)
  | zeroCharacter
deriving DecidableEq, Repr

/-- The path at which a walk ended, what was left over being followed by its text; none where a name
    with a zero character was met or is left. -/
def Walk.path? : Walk → Option Path
  | .reached l => some (.ofLocation l)
  | .circling p =>
    if (Path.collapse p.names).any Path.holdsZero then none
    else some ⟨p.anchor, Path.collapse p.names⟩
  | .zeroCharacter => none

/-- Why following ended early. -/
inductive Obstacle where
  | absent
  | circle
deriving DecidableEq, Repr

namespace Tree

/-- Where the text of a link is followed from: the directory of the link, or the top. -/
def linkBase (l : Location) (target : String) : Location :=
  match Path.anchorOf target with
  | .here => l.dropLast
  | _ => []

/-- Follows names, taking those at which nothing stands as they are written. -/
def walk (t : Tree) (links : List Location) (here : Location) : List String → Walk
  | [] => .reached here
  | name :: rest =>
    if Path.isIdle name then walk t links here rest
    else if name = ".." then walk t links here.dropLast rest
    else if Path.holdsZero name then .zeroCharacter
    else
      match t.at? (here ++ [name]) with
      | some (.link target) =>
        if _h : here ++ [name] ∈ links then
          match walk t (links.erase (here ++ [name])) (linkBase (here ++ [name]) target)
              (Path.pieces target) with
          | .reached there => walk t links there rest
          | .circling p => .circling (p.join (.ofText ("/".intercalate rest)))
          | .zeroCharacter => .zeroCharacter
        else .circling ((Path.ofLocation (here ++ [name])).join (.ofText ("/".intercalate rest)))
      | _ => walk t links (here ++ [name]) rest
termination_by names => (links.length, names.length)
decreasing_by
  · exact Prod.Lex.right _ (Nat.lt_succ_self _)
  · exact Prod.Lex.right _ (Nat.lt_succ_self _)
  · refine Prod.Lex.left _ _ ?_
    rw [List.length_erase_of_mem _h]
    exact Nat.sub_lt (List.length_pos_of_mem _h) Nat.one_pos
  · exact Prod.Lex.right _ (Nat.lt_succ_self _)
  · exact Prod.Lex.right _ (Nat.lt_succ_self _)

/-- Follows names through directories and links that are there. -/
def follow (t : Tree) (links : List Location) (here : Location) :
    List String → Except Obstacle Location
  | [] => .ok here
  | name :: rest =>
    if t.isDirectory here then
      if Path.isIdle name then follow t links here rest
      else if name = ".." then follow t links here.dropLast rest
      else
        match t.at? (here ++ [name]) with
        | some (.link target) =>
          if _h : here ++ [name] ∈ links then
            match follow t (links.erase (here ++ [name])) (linkBase (here ++ [name]) target)
                (Path.pieces target) with
            | .ok there => follow t links there rest
            | .error e => .error e
          else .error .circle
        | some _ => follow t links (here ++ [name]) rest
        | none => .error .absent
    else .error .absent
termination_by names => (links.length, names.length)
decreasing_by
  · exact Prod.Lex.right _ (Nat.lt_succ_self _)
  · exact Prod.Lex.right _ (Nat.lt_succ_self _)
  · refine Prod.Lex.left _ _ ?_
    rw [List.length_erase_of_mem _h]
    exact Nat.sub_lt (List.length_pos_of_mem _h) Nat.one_pos
  · exact Prod.Lex.right _ (Nat.lt_succ_self _)
  · exact Prod.Lex.right _ (Nat.lt_succ_self _)

/-- What opening a location finds, links followed. -/
def opened? (t : Tree) (l : Location) : Option Entry :=
  match t.follow t.links [] l with
  | .ok there => t.at? there
  | .error _ => none

/-- Whether opening a location finds a file. -/
def opensFile (t : Tree) (l : Location) : Bool :=
  match t.opened? l with
  | some (.file _) => true
  | _ => false

/-- The directory that a path is followed from. -/
def base (start : Location) (p : Path) : Location :=
  match p.anchor with
  | .here => start
  | _ => []

/-- The path at which a path ends when it is followed from a location. -/
def endOf (t : Tree) (start : Location) (p : Path) : Except PathFault Path :=
  match (t.walk t.links (base start p) p.names).path? with
  | none => .error .zeroCharacter
  | some last =>
    match t.follow t.links [] last.names with
    | .error .circle => .error (.circle last)
    | _ => .ok last

/-- Where a path leads from a location. -/
def resolve (t : Tree) (start : Location) (p : Path) : Except PathFault Location :=
  (t.endOf start p).map (·.names)

/-- Where a path leads from a root, if that is the root or lies below it. -/
def locate (t : Tree) (root : Location) (path : String) : Except PathFault (Option Location) := do
  let last ← t.endOf root (Path.ofText path)
  return if last.anchor = .top ∧ root <+: last.names then some last.names else none

end Tree

end PatchReview
