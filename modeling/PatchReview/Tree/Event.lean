import PatchReview.Tree.Basic

/-!
# Trees in use

Something that reads a tree is asked one question after another, and between the questions files come and
go. Each question is about the tree as it stands then.
-/

namespace PatchReview.Tree

/-- What may happen while a tree is in use: a file is written, what stands at a location is removed, or
    a question is asked. -/
inductive Event (α : Type) where
  | write (l : Location) (content : ByteArray)
  | remove (l : Location)
  | ask (question : α)

/-- The questions among some events, each with the tree as it stands then. -/
def asked {α : Type} (t : Tree) : List (Event α) → List (Tree × α)
  | [] => []
  | .write l content :: rest => asked (t.write l content) rest
  | .remove l :: rest => asked (t.remove l) rest
  | .ask question :: rest => (t, question) :: asked t rest

end PatchReview.Tree
