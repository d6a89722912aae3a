/-
  BoundMarkup.Proofs.Term.Selection
  ─────────────────────────────────
  **THE BEST CANDIDATE IS THE UNIQUE MINIMUM.**

  Ranks are ordered strictly and totally, so candidates have a least rank.  One
  candidate alone of that rank wins (`Candidate.Wins`); two or more of them are
  ambiguous (`Candidate.LeastShared`).  Neither notion depends on the order of the
  candidates, and `Candidate.best` decides between them.
-/
import BoundMarkup.Term.Candidate
import Mathlib.Data.List.Perm.Basic

namespace BoundMarkup.Candidate

/-! ## §1. Ranks. -/

namespace Rank

variable {a b c : Rank}

theorem isBetter_iff : a.isBetter b = true ↔
    a.casts < b.casts ∨ a.casts = b.casts ∧ (a.inferred < b.inferred
      ∨ a.inferred = b.inferred ∧ a.hasTail.toNat < b.hasTail.toNat) := by
  have htails : (!a.hasTail && b.hasTail) = true ↔ a.hasTail.toNat < b.hasTail.toNat := by
    cases a.hasTail <;> cases b.hasTail <;> decide
  rw [isBetter, Bool.or_eq_true, Bool.and_eq_true, Bool.or_eq_true, Bool.and_assoc,
    Bool.and_eq_true, htails, decide_eq_true_eq, decide_eq_true_eq, beq_iff_eq, beq_iff_eq]

theorem isBetter_irrefl (a : Rank) : ¬ a.isBetter a = true := by
  rw [isBetter_iff]
  omega

theorem isBetter_trans (hab : a.isBetter b = true) (hbc : b.isBetter c = true) :
    a.isBetter c = true := by
  rw [isBetter_iff] at *
  omega

theorem isBetter_asymm (hab : a.isBetter b = true) : ¬ b.isBetter a = true :=
  fun hba => isBetter_irrefl a (isBetter_trans hab hba)

/-- **Ranks that are not better than each other are equal.** -/
theorem eq_of_not_isBetter (hab : ¬ a.isBetter b = true) (hba : ¬ b.isBetter a = true) :
    a = b := by
  rw [isBetter_iff] at hab hba
  obtain ⟨casts, inferred, hasTail⟩ := a
  obtain ⟨casts', inferred', hasTail'⟩ := b
  simp only at hab hba
  have hcasts : casts = casts' := by omega
  have hinferred : inferred = inferred' := by omega
  have htail : hasTail.toNat = hasTail'.toNat := by omega
  rw [hcasts, hinferred]
  cases hasTail <;> cases hasTail' <;> first | rfl | cases htail

end Rank

/-! ## §2. The least rank. -/

/-- The rank is one of the candidates', and none of them has a better one. -/
structure IsLeast (candidates : List Candidate) (least : Rank) : Prop where
  attained : ∃ c ∈ candidates, c.rank = least
  lower : ∀ c ∈ candidates, c.rank = least ∨ least.isBetter c.rank = true

/-- **The best rank is the least one.** -/
theorem isLeast_bestRank? : ∀ {candidates : List Candidate} {least : Rank},
    bestRank? candidates = some least → IsLeast candidates least
  | [], least, h => by cases h
  | c :: cs, least, h => by
      unfold bestRank? at h
      cases hrest : bestRank? cs with
      | none =>
          rw [hrest] at h
          cases h
          have hcs : cs = [] := by
            cases cs with
            | nil => rfl
            | cons d ds =>
                unfold bestRank? at hrest
                split at hrest <;> cases hrest
          rw [hcs]
          exact ⟨⟨c, List.mem_cons_self, rfl⟩, List.forall_mem_singleton.2 (Or.inl rfl)⟩
      | some best =>
          simp only [hrest] at h
          have hbest := isLeast_bestRank? hrest
          obtain ⟨d, hd, hrank⟩ := hbest.attained
          by_cases hbetter : best.isBetter c.rank = true
          · rw [if_pos hbetter] at h
            cases h
            exact ⟨⟨d, List.mem_cons_of_mem c hd, hrank⟩,
              List.forall_mem_cons.2 ⟨Or.inr hbetter, hbest.lower⟩⟩
          · rw [if_neg hbetter] at h
            cases h
            refine ⟨⟨c, List.mem_cons_self, rfl⟩, List.forall_mem_cons.2 ⟨Or.inl rfl, ?_⟩⟩
            intro e he
            by_cases hce : c.rank.isBetter e.rank = true
            · exact Or.inr hce
            · -- What is not worse than `c` is not worse than the best of the rest.
              refine Or.inl (Rank.eq_of_not_isBetter (fun hec => hbetter ?_) hce)
              rcases hbest.lower e he with heq | hlower
              · rwa [heq] at hec
              · exact Rank.isBetter_trans hlower hec

theorem exists_bestRank? {c : Candidate} {cs : List Candidate} :
    ∃ least, bestRank? (c :: cs) = some least := by
  unfold bestRank?
  split
  · exact ⟨_, rfl⟩
  · exact ⟨_, rfl⟩

/-! ## §3. The two outcomes. -/

/-- **The candidate wins**: its rank is strictly better than that of each other candidate. -/
def Wins (candidates : List Candidate) (c : Candidate) : Prop :=
  ∃ others, candidates.Perm (c :: others) ∧ ∀ d ∈ others, c.rank.isBetter d.rank = true

/-- **The least rank is shared** by two or more of the candidates. -/
def LeastShared (candidates : List Candidate) : Prop :=
  ∃ least, IsLeast candidates least ∧ 2 ≤ candidates.countP (fun c => c.rank = least)

variable {cs cs' : List Candidate} {c d : Candidate}

theorem IsLeast.perm {least : Rank} (h : IsLeast cs least) (hp : cs.Perm cs') :
    IsLeast cs' least := by
  obtain ⟨c, hc, hrank⟩ := h.attained
  exact ⟨⟨c, hp.mem_iff.1 hc, hrank⟩, fun d hd => h.lower d (hp.mem_iff.2 hd)⟩

theorem Wins.perm (h : Wins cs c) (hp : cs.Perm cs') : Wins cs' c := by
  obtain ⟨others, hcs, hbetter⟩ := h
  exact ⟨others, hp.symm.trans hcs, hbetter⟩

theorem LeastShared.perm (h : LeastShared cs) (hp : cs.Perm cs') : LeastShared cs' := by
  obtain ⟨least, hleast, hcount⟩ := h
  exact ⟨least, hleast.perm hp, by rwa [← hp.countP_eq]⟩

/-- The rank of a winner is the least one, and only the winner has it. -/
theorem Wins.least (h : Wins cs c) {least : Rank} (hleast : IsLeast cs least) :
    least = c.rank ∧ cs.countP (fun d => d.rank = c.rank) = 1 := by
  obtain ⟨others, hcs, hbetter⟩ := h
  have hc : c ∈ cs := hcs.mem_iff.2 List.mem_cons_self
  have hworse : others.countP (fun d => d.rank = c.rank) = 0 := by
    refine List.countP_eq_zero.2 fun d hd heq => ?_
    have hd' := hbetter d hd
    rw [of_decide_eq_true heq] at hd'
    exact Rank.isBetter_irrefl c.rank hd'
  refine ⟨?_, ?_⟩
  · rcases hleast.lower c hc with heq | hlower
    · exact heq.symm
    · -- The candidate of the least rank would have to be another one.
      obtain ⟨d, hd, rfl⟩ := hleast.attained
      rcases List.mem_cons.1 (hcs.mem_iff.1 hd) with rfl | hd
      · rfl
      · exact absurd hlower (Rank.isBetter_asymm (hbetter d hd))
  · rw [hcs.countP_eq, List.countP_cons, hworse]
    simp

/-- A winner shares its rank with nobody. -/
theorem Wins.not_leastShared (h : Wins cs c) : ¬ LeastShared cs := by
  rintro ⟨least, hleast, hcount⟩
  obtain ⟨rfl, hone⟩ := h.least hleast
  omega

/-- The winner is the one candidate of the least rank. -/
theorem Wins.unique (hc : Wins cs c) (hd : Wins cs d) : c = d := by
  obtain ⟨others, hcs, hbetter⟩ := hc
  obtain ⟨others', hcs', hbetter'⟩ := hd
  have hmem : d ∈ c :: others := hcs.mem_iff.1 (hcs'.mem_iff.2 List.mem_cons_self)
  have hmem' : c ∈ d :: others' := hcs'.mem_iff.1 (hcs.mem_iff.2 List.mem_cons_self)
  rcases List.mem_cons.1 hmem with rfl | hmem
  · rfl
  · rcases List.mem_cons.1 hmem' with rfl | hmem'
    · rfl
    · exact absurd (hbetter' c hmem') (Rank.isBetter_asymm (hbetter d hmem))

/-! ## §4. The choice. -/

/-- **One of the two holds**, and the choice says which. -/
theorem best_cases (name : String) (h : cs ≠ []) :
    (∃ c, Wins cs c ∧ best name cs = .ok c)
      ∨ LeastShared cs ∧ ∃ a b, best name cs = .error (.ambiguousOverload name a b) := by
  obtain ⟨least, hbest⟩ : ∃ least, bestRank? cs = some least := by
    cases cs with
    | nil => exact absurd rfl h
    | cons c cs => exact exists_bestRank?
  have hleast := isLeast_bestRank? hbest
  have hfilter : cs.filter (fun c => bestRank? cs == some c.rank)
      = cs.filter (fun c => decide (c.rank = least)) := by
    refine List.filter_congr fun c _ => ?_
    rw [hbest, Option.some_beq_some]
    exact decide_eq_decide.2 eq_comm
  have hcount : cs.countP (fun c => c.rank = least)
      = (cs.filter (fun c => decide (c.rank = least))).length := List.countP_eq_length_filter
  unfold best
  rw [hfilter]
  split
  · -- Somebody has the least rank.
    rename_i hnone
    obtain ⟨c, hc, hrank⟩ := hleast.attained
    exact absurd (decide_eq_true hrank) (List.filter_eq_nil_iff.1 hnone c hc)
  · rename_i c hone
    refine Or.inl ⟨c, ⟨cs.filter (fun d => !decide (d.rank = least)), ?_, ?_⟩, rfl⟩
    · have hsplit := List.filter_append_perm (fun d => decide (d.rank = least)) cs
      rw [hone] at hsplit
      exact hsplit.symm
    · intro d hd
      have hc : c ∈ cs.filter (fun d => decide (d.rank = least)) := by
        rw [hone]
        exact List.mem_singleton.2 rfl
      have hrank : c.rank = least := of_decide_eq_true (List.mem_filter.1 hc).2
      obtain ⟨hd, hother⟩ := List.mem_filter.1 hd
      rw [hrank]
      exact (hleast.lower d hd).resolve_left (by simpa using hother)
  · rename_i c d more htwo
    rw [htwo, List.length_cons, List.length_cons] at hcount
    exact Or.inr ⟨⟨least, hleast, by omega⟩, _, _, rfl⟩

/-- **The choice succeeds with the winner**, and only if there is one. -/
theorem best_eq_ok_iff {name : String} : best name cs = .ok c ↔ Wins cs c := by
  constructor
  · intro h
    have hcs : cs ≠ [] := by
      rintro rfl
      cases h
    rcases best_cases name hcs with ⟨d, hd, hbest⟩ | ⟨-, a, b, hbest⟩
    · rw [h] at hbest
      cases hbest
      exact hd
    · rw [h] at hbest
      cases hbest
  · intro h
    have hcs : cs ≠ [] := by
      rintro rfl
      obtain ⟨others, hperm, -⟩ := h
      cases List.perm_nil.1 hperm.symm
    rcases best_cases name hcs with ⟨d, hd, hbest⟩ | ⟨hshared, -⟩
    · rw [hbest, h.unique hd]
    · exact absurd hshared h.not_leastShared

end BoundMarkup.Candidate
