/-
  BoundMarkup.Proofs.Compile.Ledger
  ─────────────────────────────────
  **THE CACHE AS A LEDGER.**

  Views are only ever added at the end.  The invariant is that each of them is
  `Justified` by the views before it: it is what its stages end with, below a
  trail that led to it, on the results that were there already.

    • `Compiles.kept` — one compilation, at any depth, keeps the invariant,
    • `compileAll_sound` — so does any sequence of requests,
    • `compileAll_settled` — hence the views of every cache are settled.

  Whatever holds of all caches is derived from `Settled`, not from the runs.
-/
import BoundMarkup.Proofs.Compile.Outcome

namespace BoundMarkup.Compiler

/-! ## §1. The invariant. -/

/-- A view is what its stages end with, if what it requires is among the views. -/
def Justified (c : Compiler) (views : List CompiledView) (v : CompiledView) : Prop :=
  ∃ chain out, c.Trail (chain ++ [v.path])
    ∧ c.Outcome (lookup views) (chain ++ [v.path]) v.path out ∧ v = viewOf v.path out

/-- **Every view is justified by the views before it**, and the only one of its path. -/
inductive Settled (c : Compiler) : List CompiledView → Prop
  | nil : Settled c []
  | snoc {views : List CompiledView} {v : CompiledView} (h : Settled c views)
      (hn : lookup views v.path = none) (hv : c.Justified views v) : Settled c (views ++ [v])

/-- The state of compilation below a chain: the paths of the chain are loaded and
not yet answered, and nothing else is. -/
structure Sound (c : Compiler) (chain : List String) (s : ViewCache) : Prop where
  settled : c.Settled s.views
  pending : ∀ p ∈ chain, s.find? p = none
  loadedOnce : s.loads.Nodup
  accounted : ∀ p ∈ s.loads, p ∈ chain ∨ (s.find? p).isSome = true

/-- What a compilation below a chain leaves behind. -/
structure Kept (c : Compiler) (chain : List String) (s : ViewCache) (path : String)
    (r : CompiledView × ViewCache) : Prop where
  sound : c.Sound chain r.2
  grows : s.views <+: r.2.views
  found : r.2.find? path = some r.1

section Ledger

variable {c : Compiler} {views : List CompiledView} {v : CompiledView} {path : String}

/-- A settled view is justified by a part of the ledger. -/
theorem Settled.justified (h : c.Settled views) (hv : lookup views path = some v) :
    ∃ earlier, earlier <+: views ∧ c.Justified earlier v := by
  induction h with
  | nil => cases hv
  | @snoc views w _ hn hw ih =>
      by_cases hp : w.path = path
      · subst hp
        rw [lookup_concat_self hn] at hv
        cases hv
        exact ⟨views, List.prefix_append views [v], hw⟩
      · rw [lookup_concat_of_ne hp] at hv
        obtain ⟨earlier, hearlier, hjust⟩ := ih hv
        exact ⟨earlier, hearlier.trans (List.prefix_append views [w]), hjust⟩

/-- The ledger has one view for a path. -/
theorem Settled.lookup_of_mem (h : c.Settled views) (hv : v ∈ views) :
    lookup views v.path = some v := by
  induction h with
  | nil => cases hv
  | @snoc views w _ hn _ ih =>
      rcases List.mem_append.1 hv with hv | hv
      · exact lookup_mono (List.prefix_append views [w]) (ih hv)
      · rw [List.mem_singleton.1 hv]
        exact lookup_concat_self hn

theorem Sound.empty (c : Compiler) : c.Sound [] .empty :=
  ⟨.nil, fun _ hp => absurd hp List.not_mem_nil, List.nodup_nil,
    fun _ hp => absurd hp List.not_mem_nil⟩

/-! ## §2. Entering and leaving a view. -/

/-- A path that is neither answered nor under construction has not been loaded. -/
theorem Sound.enter {chain : List String} {s : ViewCache} (h : c.Sound chain s)
    (hn : s.find? path = none) (hp : path ∉ chain) :
    c.Sound (chain ++ [path]) (s.noteLoad path) := by
  -- A loaded path is either in the chain or answered, and this one is neither.
  have hload : path ∉ s.loads := by
    intro hmem
    rcases h.accounted path hmem with hmem | hsome
    · exact hp hmem
    · rw [hn] at hsome
      cases hsome
  refine ⟨h.settled, ?_, ?_, ?_⟩
  · intro p hmem
    rcases List.mem_append.1 hmem with hmem | hmem
    · exact h.pending p hmem
    · rw [List.mem_singleton.1 hmem]
      exact hn
  · show (s.loads ++ [path]).Nodup
    rw [List.nodup_append]
    refine ⟨h.loadedOnce, List.nodup_singleton path, fun a ha b hb => ?_⟩
    rw [List.mem_singleton.1 hb]
    rintro rfl
    exact hload ha
  · intro p hmem
    rcases List.mem_append.1 hmem with hmem | hmem
    · exact (h.accounted p hmem).imp_left (List.mem_append_left _)
    · exact Or.inl (List.mem_append_right _ hmem)

/-- The view of the last path of the chain is a new one, and it is kept. -/
theorem Sound.leave {chain : List String} {s : ViewCache} (h : c.Sound (chain ++ [v.path]) s)
    (hp : v.path ∉ chain) (hv : c.Justified s.views v) :
    s.store v = (v, { s with views := s.views ++ [v] })
      ∧ c.Sound chain { s with views := s.views ++ [v] } := by
  have hnone : s.find? v.path = none := h.pending v.path (List.mem_append_right _ (by simp))
  refine ⟨by unfold ViewCache.store; rw [hnone], ?_, ?_, h.loadedOnce, ?_⟩
  · exact .snoc h.settled hnone hv
  · intro p hmem
    show lookup (s.views ++ [v]) p = none
    rw [lookup_concat_of_ne (by rintro rfl; exact hp hmem)]
    exact h.pending p (List.mem_append_left _ hmem)
  · intro p hmem
    show p ∈ chain ∨ (lookup (s.views ++ [v]) p).isSome = true
    by_cases hpv : v.path = p
    · right
      rw [← hpv, lookup_concat_self hnone]
      rfl
    · rw [lookup_concat_of_ne hpv]
      rcases h.accounted p hmem with hmem | hsome
      · rcases List.mem_append.1 hmem with hmem | hmem
        · exact Or.inl hmem
        · exact absurd (List.mem_singleton.1 hmem).symm hpv
      · exact Or.inr hsome

/-! ## §3. One compilation. -/

variable {request : Request} {chain : List String}

/-- Up to any request among the references, the answers have kept the invariant. -/
theorem AsksAll.sound {refs : List (String × Span)} {s t : ViewCache} {q : String}
    (h : AsksAll request chain refs s q t) (hs : c.Sound chain s)
    (hreq : ∀ q t, AsksAll request chain refs s q t → c.Sound chain t →
      c.Kept chain t q (request q t)) :
    c.Sound chain t ∧ s.views <+: t.views := by
  induction h with
  | here => exact ⟨hs, List.prefix_rfl⟩
  | later hp _ ih =>
      have hkept := hreq _ _ (.here hp) hs
      obtain ⟨hsound, hgrows⟩ := ih hkept.sound fun q t ha => hreq q t (.later hp ha)
      exact ⟨hsound, hkept.grows.trans hgrows⟩

/-- The references are answered from the ledger, up to one under construction. -/
theorem requireAll_sound :
    ∀ (refs : List (String × Span)) (s : ViewCache), c.Sound chain s →
      (∀ q t, AsksAll request chain refs s q t → c.Sound chain t →
        c.Kept chain t q (request q t)) →
      c.Sound chain (requireAll request chain refs s).2
        ∧ s.views <+: (requireAll request chain refs s).2.views
        ∧ (∀ controls, (requireAll request chain refs s).1 = .ok controls →
            Answered (lookup (requireAll request chain refs s).2.views) chain refs controls)
        ∧ ∀ e, (requireAll request chain refs s).1 = .error e →
            ∃ q span walk, (q, span) ∈ refs ∧ cycle? chain q = some walk ∧ e = .cycle walk span
  | [], s, hs, _ => by
      refine ⟨hs, List.prefix_rfl, fun controls h => ?_, fun e h => ?_⟩
      · cases h
        exact .nil
      · cases h
  | (p, span) :: rest, s, hs, hreq => by
      by_cases hp : p ∈ chain
      · rw [requireAll_cons_of_mem request hp]
        refine ⟨hs, List.prefix_rfl, fun controls h => ?_, fun e h => ?_⟩
        · cases h
        · cases h
          exact ⟨p, span, _, List.mem_cons_self, cycle?_of_mem hp, rfl⟩
      · have hkept := hreq p s (.here hp) hs
        obtain ⟨hsound, hgrows, hok, herror⟩ := requireAll_sound rest (request p s).2
          hkept.sound fun q t ha => hreq q t (.later hp ha)
        rw [requireAll_cons_of_not_mem request hp]
        refine ⟨hsound, hkept.grows.trans hgrows, fun controls h => ?_, fun e h => ?_⟩
        · cases hr : (requireAll request chain rest (request p s).2).1 with
          | error e =>
              rw [hr] at h
              cases h
          | ok found =>
              rw [hr] at h
              cases h
              exact .cons ⟨rfl, hp, lookup_mono hgrows hkept.found⟩ (hok found hr)
        · cases hr : (requireAll request chain rest (request p s).2).1 with
          | error e' =>
              rw [hr] at h
              cases h
              obtain ⟨q, span, walk, hq, hwalk⟩ := herror e hr
              exact ⟨q, span, walk, List.mem_cons_of_mem _ hq, hwalk⟩
          | ok found =>
              rw [hr] at h
              cases h

/-- Up to any request of the stages, the answers have kept the invariant. -/
theorem Asks.sound {s t : ViewCache} {q : String} (h : c.Asks request chain path s q t)
    (hs : c.Sound chain s)
    (hreq : ∀ q t, c.Asks request chain path s q t → c.Sound chain t →
      c.Kept chain t q (request q t)) :
    c.Sound chain t ∧ s.views <+: t.views := by
  cases h with
  | control hread h => exact h.sound hs fun q t ha => hreq q t (.control hread ha)
  | @master _ d _ _ _ _ hread hr _ _ _ =>
      obtain ⟨hsound, hgrows, _⟩ := requireAll_sound (markupReferences c.options d) s hs
        fun q t ha => hreq q t (.control hread ha)
      rw [hr] at hsound hgrows
      exact ⟨hsound, hgrows⟩

/-- **The stages keep the invariant**, and end as the ledger has it. -/
theorem stages_sound {s : ViewCache} (hs : c.Sound chain s)
    (hreq : ∀ q t, c.Asks request chain path s q t → c.Sound chain t →
      c.Kept chain t q (request q t)) :
    c.Sound chain (c.stages request chain path s).2
      ∧ s.views <+: (c.stages request chain path s).2.views
      ∧ c.Outcome (lookup (c.stages request chain path s).2.views) chain path
          (c.stages request chain path s).1 := by
  cases hread : c.read path with
  | error e =>
      rw [stages_of_unread hread]
      exact ⟨hs, List.prefix_rfl, .unread hread⟩
  | ok found =>
      obtain ⟨file, d⟩ := found
      obtain ⟨hsound, hgrows, hok, herror⟩ := requireAll_sound (markupReferences c.options d) s hs
        fun q t ha => hreq q t (.control hread ha)
      rw [stages_of_read hread]
      match hr : requireAll request chain (markupReferences c.options d) s with
      | (.error e, t) =>
          rw [hr] at hsound hgrows herror
          obtain ⟨q, span, walk, hq, hwalk, rfl⟩ := herror e rfl
          exact ⟨hsound, hgrows, .controlCycle hread hq hwalk⟩
      | (.ok controls, t) =>
          rw [hr] at hsound hgrows hok
          have hanswers := hok controls rfl
          cases ht : c.tree path d controls with
          | error failure =>
              simp only [ht]
              exact ⟨hsound, hgrows, .faulty hread hanswers ht⟩
          | ok tree =>
              simp only [ht]
              unfold emit
              cases hm : tree.directives.master with
              | none => exact ⟨hsound, hgrows, .plain hread hanswers ht hm⟩
              | some reference =>
                  unfold require
                  by_cases hq : reference.path ∈ chain
                  · simp only [cycle?_of_mem hq]
                    exact ⟨hsound, hgrows,
                      .masterCycle hread hanswers ht hm (cycle?_of_mem hq)⟩
                  · -- The master page comes after the controls; they stay answered.
                    have hkept := hreq _ _ (.master hread hr ht hm hq) hsound
                    simp only [cycle?_of_not_mem hq]
                    exact ⟨hkept.sound, hgrows.trans hkept.grows,
                      .mastered hread (hanswers.mono fun _ _ => lookup_mono hkept.grows)
                        ht hm hq hkept.found⟩

/-- **A compilation keeps the invariant**, and answers with what is kept. -/
theorem Compiles.kept {s : ViewCache} {r : CompiledView × ViewCache}
    (h : c.Compiles chain path s r) (htrail : c.Trail (chain ++ [path]))
    (hs : c.Sound chain s) : c.Kept chain s path r := by
  induction h with
  | cached hv => exact ⟨hs, List.prefix_rfl, hv⟩
  | @fresh chain path s request hn _ ih =>
      have hp : path ∉ chain := fun hmem =>
        (List.nodup_append.1 htrail.nodup).2.2 path hmem path (by simp) rfl
      -- Whatever is asked for extends the trail, so its answer is kept by induction.
      obtain ⟨hsound, hgrows, hout⟩ := stages_sound (hs.enter hn hp) fun q t ha =>
        ih q t ha (htrail.snoc ha.requires.1 ha.requires.2)
      have hpath := viewOf_path path
        (c.stages request (chain ++ [path]) path (s.noteLoad path)).1
      unfold Compiler.fresh
      rw [build_eq]
      set out := (c.stages request (chain ++ [path]) path (s.noteLoad path)).1 with hout_def
      set t := (c.stages request (chain ++ [path]) path (s.noteLoad path)).2 with ht_def
      have hjust : c.Justified t.views (viewOf path out) := by
        refine ⟨chain, out, ?_, ?_, ?_⟩ <;> rw [hpath]
        · exact htrail
        · exact hout
      rw [← hpath] at hsound hp
      obtain ⟨hstore, hleft⟩ := hsound.leave hp hjust
      rw [hstore]
      refine ⟨hleft, hgrows.trans (List.prefix_append _ _), ?_⟩
      have hnone : lookup t.views (viewOf path out).path = none :=
        hsound.pending _ (List.mem_append_right _ (by simp))
      have hself := lookup_concat_self hnone
      rw [hpath] at hself
      exact hself

end Ledger

/-! ## §4. Sequences of requests. -/

theorem compile_kept (c : Compiler) (path : String) {s : ViewCache} (hs : c.Sound [] s) :
    c.Kept [] s (ViewPath.normalize path) (c.compile path s) :=
  (c.compiles_compile path s).kept (.singleton c _) hs

/-- **Any sequence of requests keeps the invariant**; each is answered with the
view that is kept for its path. -/
theorem compileAll_sound (c : Compiler) (paths : List String) :
    ∀ s : ViewCache, c.Sound [] s →
      c.Sound [] (c.compileAll paths s).2 ∧ s.views <+: (c.compileAll paths s).2.views
        ∧ (c.compileAll paths s).1.map some
            = paths.map (fun path => (c.compileAll paths s).2.find? (ViewPath.normalize path)) := by
  induction paths with
  | nil => exact fun s hs => ⟨hs, List.prefix_rfl, rfl⟩
  | cons path paths ih =>
      intro s hs
      have hkept := c.compile_kept path hs
      obtain ⟨hsound, hgrows, hmap⟩ := ih (c.compile path s).2 hkept.sound
      refine ⟨hsound, hkept.grows.trans hgrows, ?_⟩
      show some (c.compile path s).1 :: (c.compileAll paths (c.compile path s).2).1.map some = _
      rw [hmap, List.map_cons]
      congr 1
      exact (lookup_mono hgrows hkept.found).symm

/-- What is in the cache after any requests is settled. -/
theorem compileAll_settled (c : Compiler) (paths : List String) :
    c.Settled (c.compileAll paths .empty).2.views :=
  (c.compileAll_sound paths .empty (.empty c)).1.settled

end BoundMarkup.Compiler
