/-
  BoundMarkup.Proofs.Compile.Once
  ───────────────────────────────
  **EVERY PATH IS COMPILED ONCE.**

  A call is a path that is asked for below a chain, in a state of the cache.  The
  calls below a request are followed one at a time (`Makes`), so what holds at
  each of them is proved by one step and an induction.  Main statement:
  `compile_once`.
-/
import BoundMarkup.Proofs.Compile.Ledger

namespace BoundMarkup.Compiler

/-! ## §1. Calls. -/

/-- A path is asked for. -/
structure Call where
  /-- The paths under construction. -/
  chain : List String
  path : String
  cache : ViewCache

/-- The call of a request from outside. -/
def Call.top (path : String) (s : ViewCache) : Call := ⟨[], ViewPath.normalize path, s⟩

/-- One call makes another: its path is not in the cache, and while it is built,
all else being answered by compilation, the other path is asked for. -/
inductive Makes (c : Compiler) : Call → Call → Prop
  | intro {chain : List String} {path q : String} {s t : ViewCache} (request : Request)
      (h : s.find? path = none)
      (answers : ∀ q t, c.Asks request (chain ++ [path]) path (s.noteLoad path) q t →
        c.Compiles (chain ++ [path]) q t (request q t))
      (ask : c.Asks request (chain ++ [path]) path (s.noteLoad path) q t) :
      Makes c ⟨chain, path, s⟩ ⟨chain ++ [path], q, t⟩

/-- A call is made at some depth below a request. -/
def Within (c : Compiler) (path : String) (s : ViewCache) : Call → Prop :=
  Relation.ReflTransGen c.Makes (.top path s)

/-- The chain is a trail, the state is sound, and it goes on from a given one. -/
structure Ordered (c : Compiler) (s : ViewCache) (call : Call) : Prop where
  trail : c.Trail (call.chain ++ [call.path])
  sound : c.Sound call.chain call.cache
  grows : s.views <+: call.cache.views

/-- **One call after another keeps the order.** -/
theorem Ordered.step {c : Compiler} {s : ViewCache} {a b : Call} (h : c.Ordered s a)
    (hab : c.Makes a b) : c.Ordered s b := by
  obtain ⟨htrail, hsound, hgrows⟩ := h
  cases hab with
  | @intro chain path q s' t request hn answers ask =>
      obtain ⟨hq, hnot⟩ := ask.requires
      have hp : path ∉ chain := fun hmem =>
        (List.nodup_append.1 htrail.nodup).2.2 path hmem path (by simp) rfl
      -- All that was asked for before is compiled, and so has kept the invariant.
      obtain ⟨hsound', hgrows'⟩ := ask.sound (hsound.enter hn hp) fun q t ha =>
        (answers q t ha).kept (htrail.snoc ha.requires.1 ha.requires.2)
      exact ⟨htrail.snoc hq hnot, hsound', hgrows.trans hgrows'⟩

/-- Below a request in a sound state, all calls are in order. -/
theorem Within.ordered {c : Compiler} {path : String} {s : ViewCache} {call : Call}
    (h : c.Within path s call) (hs : c.Sound [] s) : c.Ordered s call := by
  induction h with
  | refl => exact ⟨.singleton c _, hs, List.prefix_rfl⟩
  | tail _ hab ih => exact ih.step hab

/-! ## §2. Compile once. -/

theorem compile_of_cached (c : Compiler) {path : String} {s : ViewCache} {v : CompiledView}
    (h : s.find? (ViewPath.normalize path) = some v) : c.compile path s = (v, s) :=
  c.compileBelow_of_cached _ [] h

/-- **COMPILE ONCE.**  After any requests, the next one ends, with one result;
the chains below it never hold a path twice; and no path has been loaded twice.
A view that has been in the cache stays there, before, at and after every call,
and answers every request that spells its path. -/
theorem compile_once (c : Compiler) (earlier later : List String) (path : String) :
    let s := (c.compileAll earlier .empty).2
    let t := (c.compileAll later s).2
    (∀ r, c.Compiles [] (ViewPath.normalize path) t r ↔ r = c.compile path t)
      ∧ (∀ call, c.Within path t call → (call.chain ++ [call.path]).Nodup)
      ∧ (∀ p, t.loads.count p ≤ 1)
      ∧ ∀ p v, s.find? p = some v →
          t.find? p = some v
            ∧ (∀ call, c.Within path t call → call.cache.find? p = some v
                ∧ ∀ r, c.Compiles call.chain call.path call.cache r → r.2.find? p = some v)
            ∧ (ViewPath.normalize path = p → c.compile path t = (v, t)) := by
  intro s t
  obtain ⟨hs, _⟩ := c.compileAll_sound earlier .empty (.empty c)
  obtain ⟨ht, hst, _⟩ := c.compileAll_sound later s hs
  refine ⟨fun r => ⟨fun h => h.unique (c.compiles_compile path t), ?_⟩, ?_, ?_, ?_⟩
  · rintro rfl
    exact c.compiles_compile path t
  · exact fun call hcall => (hcall.ordered ht).trail.nodup
  · exact fun p => List.nodup_iff_count_le_one.1 ht.loadedOnce p
  · intro p v hv
    have hv : t.find? p = some v := lookup_mono hst hv
    refine ⟨hv, fun call hcall => ?_, ?_⟩
    · have hordered := hcall.ordered ht
      have hcached : call.cache.find? p = some v := lookup_mono hordered.grows hv
      exact ⟨hcached, fun r hr =>
        lookup_mono (hr.kept hordered.trail hordered.sound).grows hcached⟩
    · rintro rfl
      exact c.compile_of_cached hv

/-- A master page that another one has asked for answers each spelling of its
path, and is as it was in all calls below a request for a third one. -/
theorem compile_once_sample :
    ∃ v, (sample.compileAll ["a.dotmaster"] .empty).2.find? "b.dotmaster" = some v
      ∧ sample.compile "./b.dotmaster" (sample.compileAll ["a.dotmaster"] .empty).2
          = (v, (sample.compileAll ["a.dotmaster"] .empty).2)
      ∧ ∀ call, sample.Within "sub.dotmaster" (sample.compileAll ["a.dotmaster"] .empty).2 call →
          (call.chain ++ [call.path]).Nodup ∧ call.cache.find? "b.dotmaster" = some v := by
  have hsome : ((sample.compileAll ["a.dotmaster"] .empty).2.find?
      "b.dotmaster").isSome = true := by decide +kernel
  obtain ⟨v, hv⟩ := Option.isSome_iff_exists.1 hsome
  obtain ⟨_, _, _, hspelled⟩ := compile_once sample ["a.dotmaster"] [] "./b.dotmaster"
  obtain ⟨_, hnodup, _, hkept⟩ := compile_once sample ["a.dotmaster"] [] "sub.dotmaster"
  refine ⟨v, hv, (hspelled _ v hv).2.2 (by decide +kernel), fun call hcall => ?_⟩
  exact ⟨hnodup call hcall, ((hkept _ v hv).2.1 call hcall).1⟩

end BoundMarkup.Compiler
