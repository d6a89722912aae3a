/-
  BoundMarkup.Proofs.Binding.Nodes
  ────────────────────────────────
  **THE NODES OF A TREE AND THEIR TOKENS.**

  A tree is written with tokens in order, so each node has tokens of its own:
  `Expr.nodes` lists the nodes, types and arguments among them, with the tokens
  from the first of each on.  No region of the tree is left out
  (`Expr.map_span_nodes`), and every node starts at one of the tokens given
  (`Expr.nodes_within`).
-/
import BoundMarkup.Proofs.Binding.Starts
import BoundMarkup.Proofs.Binding.Yield

namespace BoundMarkup.Binding

/-! ## §1. The nodes of a tree. -/

/-- The tokens behind those of the symbols. -/
def past (ts : List Token) (ss : List Symbol) : List Token := ts.drop ss.length

/-- A node of a tree: all tokens from its first one on, the symbols of its own tokens,
and its region. -/
structure Node where
  tokens : List Token
  symbols : List Symbol
  span : Span

namespace Node

/-- The tokens of the node itself. -/
def own (node : Node) : List Token := node.tokens.take node.symbols.length

/-- The tokens behind the node. -/
def rest (node : Node) : List Token := past node.tokens node.symbols

end Node

mutual

/-- The nodes of a type that starts the tokens. -/
def TypeExpr.nodes : TypeExpr → List Token → List Node
  | .mk name args suffixes span, ts =>
      ⟨ts, (TypeExpr.mk name args suffixes span).yield, span⟩ ::
        TypeExpr.nodesOf args (past ts (nameYield name ++ [.mark .less]))

/-- The nodes of types with a comma between any two. -/
def TypeExpr.nodesOf : List TypeExpr → List Token → List Node
  | [], _ => []
  | t :: more, ts => t.nodes ts ++ TypeExpr.nodesOf more (past ts (t.yield ++ [.mark .comma]))

end

/-- The nodes of a name and of its type arguments. -/
def calledNodes (ident : Ident) (typeArgs : List TypeExpr) (ts : List Token) : List Node :=
  ⟨ts, [.name ident.name], ident.span⟩ ::
    TypeExpr.nodesOf typeArgs (past ts [.name ident.name, .mark .less])

mutual

/-- **The nodes of an expression that starts the tokens**, itself first. -/
def Expr.nodes (e : Expr) (ts : List Token) : List Node :=
  ⟨ts, e.yield, e.span⟩ ::
    match e with
    | .literal _ _ => []
    | .ident ident typeArgs _ => calledNodes ident typeArgs ts
    | .member target member typeArgs _ =>
        target.nodes ts ++ calledNodes member typeArgs (past ts (target.yield ++ [.mark .dot]))
    | .call callee args _ =>
        callee.nodes ts ++ Argument.nodesOf args (past ts (callee.yield ++ [.mark .leftParen]))
    | .index target index _ =>
        target.nodes ts ++ index.nodes (past ts (target.yield ++ [.mark .leftBracket]))
    | .unary op operand _ => operand.nodes (past ts [.mark (.ofUnary op)])
    | .binary left op right _ =>
        left.nodes ts ++ right.nodes (past ts (left.yield ++ operatorYield op))
    | .assign target value _ =>
        target.nodes ts ++ value.nodes (past ts (target.yield ++ [.mark .equal]))
    | .paren inner _ => inner.nodes (past ts [.mark .leftParen])

/-- The nodes of an argument that starts the tokens. -/
def Argument.nodes : Argument → List Token → List Node
  | .mk none value span, ts => ⟨ts, value.yield, span⟩ :: value.nodes ts
  | .mk (some name) value span, ts =>
      ⟨ts, .name name.name :: .mark .colon :: value.yield, span⟩ ::
        ⟨ts, [.name name.name], name.span⟩ ::
          value.nodes (past ts [.name name.name, .mark .colon])

/-- The nodes of arguments with a comma between any two. -/
def Argument.nodesOf : List Argument → List Token → List Node
  | [], _ => []
  | a :: more, ts => a.nodes ts ++ Argument.nodesOf more (past ts (a.yield ++ [.mark .comma]))

end

/-! ## §2. No node is left out. -/

mutual

theorem TypeExpr.map_span_nodes : (t : TypeExpr) → (ts : List Token) →
    (t.nodes ts).map Node.span = t.spans
  | .mk name args suffixes span, ts => by
      rw [TypeExpr.nodes, TypeExpr.spans, List.map_cons, TypeExpr.map_span_nodesOf args]

theorem TypeExpr.map_span_nodesOf : (types : List TypeExpr) → (ts : List Token) →
    (TypeExpr.nodesOf types ts).map Node.span = TypeExpr.spansOf types
  | [], _ => rfl
  | t :: more, ts => by
      rw [TypeExpr.nodesOf, TypeExpr.spansOf, List.map_append, t.map_span_nodes,
        TypeExpr.map_span_nodesOf more]

end

theorem map_span_calledNodes (ident : Ident) (typeArgs : List TypeExpr) (ts : List Token) :
    (calledNodes ident typeArgs ts).map Node.span = ident.span :: TypeExpr.spansOf typeArgs := by
  rw [calledNodes, List.map_cons, TypeExpr.map_span_nodesOf]

mutual

/-- **No node of a tree is left out**: the nodes have the regions of the tree. -/
theorem Expr.map_span_nodes : (e : Expr) → (ts : List Token) →
    ((e.nodes ts).map Node.span).Perm e.spans
  | .literal value span, _ => .refl _
  | .ident ident typeArgs span, _ => by
      rw [Expr.nodes, List.map_cons, map_span_calledNodes]
      exact .refl _
  | .member target member typeArgs span, ts => by
      rw [Expr.nodes, List.map_cons, List.map_append, map_span_calledNodes]
      -- The name of the member stands behind the nodes of the target.
      exact (((target.map_span_nodes ts).append_right _).trans List.perm_middle).cons span
  | .call callee args span, ts => by
      rw [Expr.nodes, List.map_cons, List.map_append]
      exact ((callee.map_span_nodes ts).append (Argument.map_span_nodesOf args _)).cons span
  | .index target index span, ts => by
      rw [Expr.nodes, List.map_cons, List.map_append]
      exact ((target.map_span_nodes ts).append (index.map_span_nodes _)).cons span
  | .unary op operand span, ts => (operand.map_span_nodes _).cons span
  | .binary left op right span, ts => by
      rw [Expr.nodes, List.map_cons, List.map_append]
      exact ((left.map_span_nodes ts).append (right.map_span_nodes _)).cons span
  | .assign target value span, ts => by
      rw [Expr.nodes, List.map_cons, List.map_append]
      exact ((target.map_span_nodes ts).append (value.map_span_nodes _)).cons span
  | .paren inner span, ts => (inner.map_span_nodes _).cons span

theorem Argument.map_span_nodes : (a : Argument) → (ts : List Token) →
    ((a.nodes ts).map Node.span).Perm a.spans
  | .mk none value span, ts => (value.map_span_nodes ts).cons span
  | .mk (some name) value span, _ => ((value.map_span_nodes _).cons name.span).cons span

theorem Argument.map_span_nodesOf : (args : List Argument) → (ts : List Token) →
    ((Argument.nodesOf args ts).map Node.span).Perm (Argument.spansOf args)
  | [], _ => .refl _
  | a :: more, ts => by
      rw [Argument.nodesOf, List.map_append]
      exact (a.map_span_nodes ts).append (Argument.map_span_nodesOf more _)

end

/-! ## §3. Nodes start at tokens. -/

/-- The tokens of the nodes are the last ones of the tokens given. -/
def Within (ts : List Token) (nodes : List Node) : Prop := ∀ node ∈ nodes, node.tokens <:+ ts

theorem Within.cons {ts : List Token} {nodes : List Node} (h : Within ts nodes)
    (symbols : List Symbol) (span : Span) : Within ts (⟨ts, symbols, span⟩ :: nodes) :=
  List.forall_mem_cons.2 ⟨List.suffix_rfl, h⟩

theorem Within.append {ts : List Token} {nodes nodes' : List Node} (h : Within ts nodes)
    (h' : Within ts nodes') : Within ts (nodes ++ nodes') :=
  List.forall_mem_append.2 ⟨h, h'⟩

theorem Within.of_past {ts : List Token} {ss : List Symbol} {nodes : List Node}
    (h : Within (past ts ss) nodes) : Within ts nodes :=
  fun node hnode => (h node hnode).trans (List.drop_suffix ss.length ts)

mutual

theorem TypeExpr.nodes_within : (t : TypeExpr) → (ts : List Token) → Within ts (t.nodes ts)
  | .mk _ args _ _, _ => (TypeExpr.nodesOf_within args _).of_past.cons _ _

theorem TypeExpr.nodesOf_within : (types : List TypeExpr) → (ts : List Token) →
    Within ts (TypeExpr.nodesOf types ts)
  | [], _ => List.forall_mem_nil _
  | t :: more, ts => (t.nodes_within ts).append (TypeExpr.nodesOf_within more _).of_past

end

theorem calledNodes_within (ident : Ident) (typeArgs : List TypeExpr) (ts : List Token) :
    Within ts (calledNodes ident typeArgs ts) :=
  (TypeExpr.nodesOf_within typeArgs _).of_past.cons _ _

mutual

/-- Every node of an expression starts at one of its tokens. -/
theorem Expr.nodes_within : (e : Expr) → (ts : List Token) → Within ts (e.nodes ts)
  | .literal _ _, _ => .cons (List.forall_mem_nil _) _ _
  | .ident ident typeArgs _, ts => (calledNodes_within ident typeArgs ts).cons _ _
  | .member target member typeArgs _, ts =>
      ((target.nodes_within ts).append (calledNodes_within member typeArgs _).of_past).cons _ _
  | .call callee args _, ts =>
      ((callee.nodes_within ts).append (Argument.nodesOf_within args _).of_past).cons _ _
  | .index target index _, ts =>
      ((target.nodes_within ts).append (index.nodes_within _).of_past).cons _ _
  | .unary _ operand _, _ => (operand.nodes_within _).of_past.cons _ _
  | .binary left _ right _, ts =>
      ((left.nodes_within ts).append (right.nodes_within _).of_past).cons _ _
  | .assign target value _, ts =>
      ((target.nodes_within ts).append (value.nodes_within _).of_past).cons _ _
  | .paren inner _, _ => (inner.nodes_within _).of_past.cons _ _

theorem Argument.nodes_within : (a : Argument) → (ts : List Token) → Within ts (a.nodes ts)
  | .mk none value _, ts => (value.nodes_within ts).cons _ _
  | .mk (some _) value _, _ => ((value.nodes_within _).of_past.cons _ _).cons _ _

theorem Argument.nodesOf_within : (args : List Argument) → (ts : List Token) →
    Within ts (Argument.nodesOf args ts)
  | [], _ => List.forall_mem_nil _
  | a :: more, ts => (a.nodes_within ts).append (Argument.nodesOf_within more _).of_past

end

end BoundMarkup.Binding
