/-
  BoundMarkup.Proofs.Compile.Derivation
  ─────────────────────────────────────
  **COMPILATION WITHOUT A BOUND ON ITS ROUNDS.**

  `Compiles` is the recursion of compilation as an inductive relation: a path is
  answered from the cache, or it is built with answers that are compilations
  themselves.  A derivation is finite, so it says that the recursion ends.

    • `Compiles.unique` — a derivation has one result,
    • `compiles_compileBelow` — with rounds enough for the chain, the bounded
      recursion finds it.
-/
import BoundMarkup.Proofs.Compile.Dependency
import BoundMarkup.Proofs.Compile.Failure

namespace BoundMarkup.Compiler

open Markup (Document)

/-! ## §1. Cycles and requests. -/

theorem cycle?_of_mem {chain : List String} {q : String} (h : q ∈ chain) :
    cycle? chain q = some (chain.dropWhile (fun p => p != q) ++ [q]) := if_pos h

theorem cycle?_of_not_mem {chain : List String} {q : String} (h : q ∉ chain) :
    cycle? chain q = none := if_neg h

theorem requireAll_cons_of_mem (request : Request) {chain : List String} {q : String}
    (h : q ∈ chain) (span : Span) (rest : List (String × Span)) (s : ViewCache) :
    requireAll request chain ((q, span) :: rest) s
      = (.error (.cycle (chain.dropWhile (fun p => p != q) ++ [q]) span), s) := by
  simp only [requireAll, require, cycle?_of_mem h]

theorem requireAll_cons_of_not_mem (request : Request) {chain : List String} {q : String}
    (h : q ∉ chain) (span : Span) (rest : List (String × Span)) (s : ViewCache) :
    requireAll request chain ((q, span) :: rest) s
      = ((requireAll request chain rest (request q s).2).1.map ((q, (request q s).1) :: ·),
          (requireAll request chain rest (request q s).2).2) := by
  simp only [requireAll, require, cycle?_of_not_mem h]
  cases requireAll request chain rest (request q s).2 with
  | mk found t => cases found <;> rfl

/-- Among the references, `q` is asked for in the state `t`, if the answers are
those of `request`. -/
inductive AsksAll (request : Request) (chain : List String) :
    List (String × Span) → ViewCache → String → ViewCache → Prop
  | here {q : String} {span : Span} {rest : List (String × Span)} {s : ViewCache}
      (hq : q ∉ chain) : AsksAll request chain ((q, span) :: rest) s q s
  | later {p q : String} {span : Span} {rest : List (String × Span)} {s t : ViewCache}
      (hp : p ∉ chain) (h : AsksAll request chain rest (request p s).2 q t) :
      AsksAll request chain ((p, span) :: rest) s q t

/-- To build the last path of the chain, `q` is asked for in the state `t`, if
the answers are those of `request`. -/
inductive Asks (c : Compiler) (request : Request) (chain : List String) (path : String)
    (s : ViewCache) : String → ViewCache → Prop
  | control {file : MarkupFile} {d : Document} {q : String} {t : ViewCache}
      (hread : c.read path = .ok (file, d))
      (h : AsksAll request chain (markupReferences c.options d) s q t) :
      Asks c request chain path s q t
  | master {file : MarkupFile} {d : Document} {controls : List (String × CompiledView)}
      {t : ViewCache} {tree : ControlTree} {reference : MasterReference}
      (hread : c.read path = .ok (file, d))
      (hr : requireAll request chain (markupReferences c.options d) s = (.ok controls, t))
      (ht : c.tree path d controls = .ok tree) (hm : tree.directives.master = some reference)
      (hq : reference.path ∉ chain) : Asks c request chain path s reference.path t

theorem AsksAll.mem {request : Request} {chain : List String} {refs : List (String × Span)}
    {s t : ViewCache} {q : String} (h : AsksAll request chain refs s q t) :
    q ∈ refs.map Prod.fst ∧ q ∉ chain := by
  induction h with
  | here hq => exact ⟨List.mem_cons_self, hq⟩
  | later _ _ ih => exact ⟨List.mem_cons_of_mem _ ih.1, ih.2⟩

/-- What is asked for is required, and not under construction. -/
theorem Asks.requires {c : Compiler} {request : Request} {chain : List String}
    {path q : String} {s t : ViewCache} (h : c.Asks request chain path s q t) :
    c.Requires path q ∧ q ∉ chain := by
  cases h with
  | control hread h => exact ⟨.control (documentAt?_of_read hread) h.mem.1, h.mem.2⟩
  | @master _ d _ _ tree reference hread _ ht hm hq =>
      refine ⟨.master (documentAt?_of_read hread) ?_, hq⟩
      rw [← hm]
      exact (tree_eq_ok ht).2.1

/-! ## §2. The same answers, the same view. -/

theorem requireAll_congr {request request' : Request} {chain : List String} :
    ∀ (refs : List (String × Span)) (s : ViewCache),
      (∀ q t, AsksAll request chain refs s q t → AsksAll request' chain refs s q t →
        request q t = request' q t) →
      requireAll request chain refs s = requireAll request' chain refs s
  | [], _, _ => rfl
  | (p, span) :: rest, s, h => by
      by_cases hp : p ∈ chain
      · rw [requireAll_cons_of_mem request hp, requireAll_cons_of_mem request' hp]
      · have hhead : request p s = request' p s := h p s (.here hp) (.here hp)
        have hrest := requireAll_congr rest (request p s).2 fun q t ha ha' =>
          h q t (.later hp ha) (.later hp (by rw [← hhead]; exact ha'))
        rw [requireAll_cons_of_not_mem request hp, requireAll_cons_of_not_mem request' hp,
            ← hhead, hrest]

/-- Without a document there is nothing to ask for. -/
theorem stages_of_unread {c : Compiler} {path : String} {e : ViewError}
    (h : c.read path = .error e) (request : Request) (chain : List String) (s : ViewCache) :
    c.stages request chain path s = (.error (.error e), s) := by
  unfold read at h
  unfold stages
  cases hf : c.source.load? path with
  | none =>
      rw [hf] at h
      cases h
      rfl
  | some file =>
      rw [hf] at h
      cases hd : document file.content with
      | error e' =>
          simp only [hd] at h ⊢
          cases h
          rfl
      | ok d =>
          simp only [hd] at h
          cases h

/-- With a document, first its references are asked for. -/
theorem stages_of_read {c : Compiler} {path : String} {file : MarkupFile} {d : Document}
    (h : c.read path = .ok (file, d)) (request : Request) (chain : List String) (s : ViewCache) :
    c.stages request chain path s
      = match requireAll request chain (markupReferences c.options d) s with
        | (.error e, t) => (.error (.error e), t)
        | (.ok controls, t) =>
            match c.tree path d controls with
            | .error failure => (.error failure, t)
            | .ok tree => c.emit request chain file tree (controls.map Prod.fst) t := by
  obtain ⟨hf, hd⟩ := read_eq_ok h
  cases hr : requireAll request chain (markupReferences c.options d) s with
  | mk found t =>
      cases found with
      | error e => simp only [stages, hf, hd, hr]
      | ok controls =>
          cases ht : c.tree path d controls with
          | error failure => simp only [stages, hf, hd, hr, ht]
          | ok tree => simp only [stages, hf, hd, hr, ht]

/-- Two ways to answer give the same outcome if they agree on what is asked for
both ways. -/
theorem stages_congr {c : Compiler} {request request' : Request} {chain : List String}
    {path : String} {s : ViewCache}
    (h : ∀ q t, c.Asks request chain path s q t → c.Asks request' chain path s q t →
      request q t = request' q t) :
    c.stages request chain path s = c.stages request' chain path s := by
  cases hread : c.read path with
  | error e => rw [stages_of_unread hread, stages_of_unread hread]
  | ok found =>
      obtain ⟨file, d⟩ := found
      have hrefs := requireAll_congr (markupReferences c.options d) s fun q t ha ha' =>
        h q t (.control hread ha) (.control hread ha')
      rw [stages_of_read hread, stages_of_read hread, ← hrefs]
      match hr : requireAll request chain (markupReferences c.options d) s with
      | (.error e, t) => rfl
      | (.ok controls, t) =>
          cases ht : c.tree path d controls with
          | error failure => simp only [ht]
          | ok tree =>
              simp only [ht]
              unfold emit
              cases hm : tree.directives.master with
              | none => rfl
              | some reference =>
                  unfold require
                  by_cases hq : reference.path ∈ chain
                  · simp only [cycle?_of_mem hq]
                  · have heq := h _ _ (.master hread hr ht hm hq)
                      (.master hread (hrefs ▸ hr) ht hm hq)
                    simp only [cycle?_of_not_mem hq, heq]

/-! ## §3. Derivations. -/

/-- The view of a path that is not in the cache, and the cache that keeps it. -/
def fresh (c : Compiler) (request : Request) (chain : List String) (path : String)
    (s : ViewCache) : CompiledView × ViewCache :=
  (c.build request chain path s).2.store (c.build request chain path s).1

theorem compileBelow_of_cached (c : Compiler) (rounds : Nat) (chain : List String)
    {path : String} {s : ViewCache} {v : CompiledView} (h : s.find? path = some v) :
    c.compileBelow (rounds + 1) chain path s = (v, s) := by
  simp only [compileBelow, h]

theorem compileBelow_of_fresh (c : Compiler) (rounds : Nat) (chain : List String)
    {path : String} {s : ViewCache} (h : s.find? path = none) :
    c.compileBelow (rounds + 1) chain path s
      = c.fresh (c.compileBelow rounds (chain ++ [path])) (chain ++ [path]) path s := by
  simp only [compileBelow, h]
  rfl

/-- **Compilation of a path below a chain**, from one state to a view and the
state after it.  The answers to whatever is asked are compilations below the
chain that ends in the path. -/
inductive Compiles (c : Compiler) :
    List String → String → ViewCache → CompiledView × ViewCache → Prop
  | cached {chain : List String} {path : String} {s : ViewCache} {v : CompiledView}
      (h : s.find? path = some v) : Compiles c chain path s (v, s)
  | fresh {chain : List String} {path : String} {s : ViewCache} (request : Request)
      (h : s.find? path = none)
      (answers : ∀ q t, c.Asks request (chain ++ [path]) path (s.noteLoad path) q t →
        Compiles c (chain ++ [path]) q t (request q t)) :
      Compiles c chain path s (c.fresh request (chain ++ [path]) path s)

/-- **A compilation has one result.** -/
theorem Compiles.unique {c : Compiler} {chain : List String} {path : String} {s : ViewCache}
    {r r' : CompiledView × ViewCache} (h : c.Compiles chain path s r)
    (h' : c.Compiles chain path s r') : r = r' := by
  induction h generalizing r' with
  | @cached _ _ _ v hv =>
      cases h' with
      | cached hv' =>
          rw [hv] at hv'
          cases hv'
          rfl
      | fresh _ hn _ =>
          rw [hv] at hn
          cases hn
  | @fresh chain path s request hn _ ih =>
      cases h' with
      | cached hv =>
          rw [hn] at hv
          cases hv
      | fresh request' _ answers' =>
          -- What both ask for in one state has one answer, by induction.
          have hstages := stages_congr (s := s.noteLoad path) fun q t ha ha' =>
            ih q t ha (answers' q t ha')
          unfold Compiler.fresh build
          rw [hstages]

/-- **The bounded recursion is a compilation**, if its rounds are enough for the
longest trail that goes on from the chain. -/
theorem compiles_compileBelow (c : Compiler) :
    ∀ (rounds : Nat) (chain : List String) (path : String) (s : ViewCache),
      c.Trail (chain ++ [path]) → c.rounds ≤ rounds + chain.length →
      c.Compiles chain path s (c.compileBelow rounds chain path s) := by
  intro rounds
  induction rounds with
  | zero =>
      intro chain path s htrail hrounds
      -- No trail is that long, so the last round is never reached.
      have hlen := htrail.length_le_rounds
      rw [List.length_append, List.length_singleton] at hlen
      omega
  | succ rounds ih =>
      intro chain path s htrail hrounds
      cases hv : s.find? path with
      | some v =>
          rw [compileBelow_of_cached c rounds chain hv]
          exact .cached hv
      | none =>
          rw [compileBelow_of_fresh c rounds chain hv]
          refine .fresh _ hv fun q t ha => ?_
          obtain ⟨hq, hn⟩ := ha.requires
          refine ih _ q t (htrail.snoc hq hn) ?_
          rw [List.length_append, List.length_singleton]
          omega

/-- Every request for a view ends. -/
theorem compiles_compile (c : Compiler) (path : String) (s : ViewCache) :
    c.Compiles [] (ViewPath.normalize path) s (c.compile path s) :=
  c.compiles_compileBelow c.rounds [] _ s (.singleton c _) (Nat.le_refl _)

end BoundMarkup.Compiler
