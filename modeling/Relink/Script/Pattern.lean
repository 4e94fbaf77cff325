import Relink.Script.Tree

/-!
# From expressions to patterns

What stands left of an assignment, or between the parentheses of an arrow function, is read as an
expression first. This module turns such an expression into the pattern it turned out to be, or
refuses.

* `Node.isSimpleTarget` — names and member accesses, possibly in parentheses.
* `Node.asTarget` — the target of an assignment; its leaves are simple targets.
* `Node.asBinding` — a declaration; its leaves are names.
-/

namespace Relink.Script.Node

/-- Whether a value can be assigned to this expression without taking it apart. -/
def isSimpleTarget : Node → Bool
  | mk (.identifier _) _ _ => true
  | mk (.member _) _ _ => true
  | mk (.privateMember _) _ _ => true
  | mk .index _ _ => true
  | mk .paren _ [e] => isSimpleTarget e
  | _ => false

mutual

/-- The pattern that an expression left of an assignment sign stands for. -/
def asTarget : Node → Option Node
  | mk (.array trailing) s es => (asTargetList trailing es).map (mk .arrayPattern s)
  | mk (.object trailing) s ps => (asTargetList trailing ps).map (mk .objectPattern s)
  | mk k s ps => if isSimpleTarget (mk k s ps) then some (mk k s ps) else none

/-- An element of a pattern: a pattern with or without a default, a gap, or the rest. -/
def asTargetElement : Node → Option Node
  | mk (.assign .assign) s ps => some (mk .defaulted s ps)
  | mk .elision s ps => some (mk .elision s ps)
  | mk .spread s [e] => (asTarget e).map fun t => mk .rest s [t]
  | mk (.shorthandDefault x) s ps =>
    some (mk .patternProperty s [mk .defaulted s (mk (.identifier x) s [] :: ps)])
  | mk (.property _ .shorthand) s ps => some (mk .patternProperty s ps)
  | mk (.property _ .keyed) s [v] => (asTargetElement v).map fun t => mk .patternProperty s [t]
  | mk (.property _ .keyed) s [k, v] =>
    (asTargetElement v).map fun t => mk .patternProperty s [k, t]
  | mk (.array trailing) s es => (asTargetList trailing es).map (mk .arrayPattern s)
  | mk (.object trailing) s ps => (asTargetList trailing ps).map (mk .objectPattern s)
  | mk k s ps => if isSimpleTarget (mk k s ps) then some (mk k s ps) else none

/-- The elements of a pattern; the rest stands last, without a comma behind it. -/
def asTargetList (trailing : Bool) : List Node → Option (List Node)
  | [] => some []
  | e :: es =>
    if e.kind == .spread && (trailing || !es.isEmpty) then none
    else
      match asTargetElement e, asTargetList trailing es with
      | some t, some ts => some (t :: ts)
      | _, _ => none

end

mutual

/-- The declaration that an expression between the parentheses of an arrow function stands for;
assignments inside it were taken for targets before and are looked at again. -/
def asBinding : Node → Option Node
  | mk (.identifier x) s _ => some (mk (.binding x) s [])
  | mk (.binding x) s _ => some (mk (.binding x) s [])
  | mk (.array trailing) s es => (asBindingList false trailing es).map (mk .arrayPattern s)
  | mk .arrayPattern s es => (asBindingList false false es).map (mk .arrayPattern s)
  | mk (.object trailing) s ps => (asBindingList true trailing ps).map (mk .objectPattern s)
  | mk .objectPattern s ps => (asBindingList true false ps).map (mk .objectPattern s)
  | _ => none

/-- A parameter or an element of a declaration: with or without a default, a gap, or the rest. -/
def asBindingElement : Node → Option Node
  | mk (.assign .assign) s [l, r] => (asBinding l).map fun b => mk .defaulted s [b, r]
  | mk .defaulted s [l, r] => (asBinding l).map fun b => mk .defaulted s [b, r]
  | mk .elision s ps => some (mk .elision s ps)
  | mk .spread s [e] => (asBinding e).map fun b => mk .rest s [b]
  | mk .rest s [e] => (asBinding e).map fun b => mk .rest s [b]
  | mk (.shorthandDefault x) s ps =>
    some (mk .patternProperty s [mk .defaulted s (mk (.binding x) s [] :: ps)])
  | mk (.property _ .shorthand) s [v] =>
    (asBindingElement v).map fun b => mk .patternProperty s [b]
  | mk (.property _ .keyed) s [v] => (asBindingElement v).map fun b => mk .patternProperty s [b]
  | mk (.property _ .keyed) s [k, v] =>
    (asBindingElement v).map fun b => mk .patternProperty s [k, b]
  | mk .patternProperty s [v] => (asBindingElement v).map fun b => mk .patternProperty s [b]
  | mk .patternProperty s [k, v] => (asBindingElement v).map fun b => mk .patternProperty s [k, b]
  | mk (.identifier x) s _ => some (mk (.binding x) s [])
  | mk (.array trailing) s es => (asBindingList false trailing es).map (mk .arrayPattern s)
  | mk .arrayPattern s es => (asBindingList false false es).map (mk .arrayPattern s)
  | mk (.object trailing) s ps => (asBindingList true trailing ps).map (mk .objectPattern s)
  | mk .objectPattern s ps => (asBindingList true false ps).map (mk .objectPattern s)
  | _ => none

/-- The elements of a declaration; the rest stands last, without a comma behind it, and is a name
when the properties of an object are taken apart. -/
def asBindingList (ofObject trailing : Bool) : List Node → Option (List Node)
  | [] => some []
  | e :: es =>
    if (e.kind == .spread || e.kind == .rest) && (trailing || !es.isEmpty) then none
    else
      match asBindingElement e, asBindingList ofObject trailing es with
      | some (mk .rest s [mk (.binding x) t ps]), some bs =>
        some (mk .rest s [mk (.binding x) t ps] :: bs)
      | some (mk .rest s ps), some bs => if ofObject then none else some (mk .rest s ps :: bs)
      | some b, some bs => some (b :: bs)
      | _, _ => none

end

mutual

/-- The names that a declared pattern declares; defaults and computed keys declare none. -/
def boundNames : Node → List String
  | mk (.binding x) _ _ => [x]
  | mk .arrayPattern _ es => boundNamesAll es
  | mk .objectPattern _ ps => boundNamesAll ps
  | mk .patternProperty _ [v] => boundNames v
  | mk .patternProperty _ [_, v] => boundNames v
  | mk .defaulted _ (l :: _) => boundNames l
  | mk .rest _ [l] => boundNames l
  | _ => []

/-- The names that several patterns declare. -/
def boundNamesAll : List Node → List String
  | [] => []
  | n :: ns => boundNames n ++ boundNamesAll ns

end

/-- Whether a default of a shorthand property is left in a tree: it is legal only in a pattern. -/
def hasShorthandDefault (n : Node) : Bool :=
  n.any fun m => match m.kind with
    | .shorthandDefault _ => true
    | _ => false

end Relink.Script.Node
