import Mathlib

/-!
# Dealt — entries dealt out to rows

A list of entries is dealt out to a list of rows when it can be cut into one group for each row such
that every row fits its group.  No entry is in two groups and none is left over.  Neither the order
of the rows nor that of the entries matters.
-/

namespace EventRecorder.Theory

variable {R E : Type*} {fits : R → List E → Prop} {rows rows' : List R} {entries entries' : List E}

def Dealt (fits : R → List E → Prop) (rows : List R) (entries : List E) : Prop :=
  ∃ groups, List.Forall₂ fits rows groups ∧ groups.flatten.Perm entries

theorem dealt_nil : Dealt fits [] [] :=
  ⟨[], .nil, List.Perm.refl []⟩

theorem dealt_singleton {row : R} (h : fits row entries) : Dealt fits [row] entries :=
  ⟨[entries], .cons h .nil, by simp⟩

theorem Dealt.append (h : Dealt fits rows entries) (h' : Dealt fits rows' entries') :
    Dealt fits (rows ++ rows') (entries ++ entries') := by
  obtain ⟨groups, hfits, hperm⟩ := h
  obtain ⟨groups', hfits', hperm'⟩ := h'
  refine ⟨groups ++ groups', List.rel_append hfits hfits', ?_⟩
  rw [List.flatten_append]
  exact hperm.append hperm'

theorem Dealt.perm_rows (h : Dealt fits rows entries) (hperm : rows'.Perm rows) :
    Dealt fits rows' entries := by
  obtain ⟨groups, hfits, hgroups⟩ := h
  -- the groups are put in the order of their rows
  obtain ⟨groups', hfits', hgroups'⟩ := List.perm_comp_forall₂ hperm hfits
  exact ⟨groups', hfits', hgroups'.flatten.trans hgroups⟩

/-- A row stands for the entries of its group. -/
theorem Dealt.exists_group (h : Dealt fits rows entries) {row : R} (hrow : row ∈ rows) :
    ∃ group, fits row group ∧ group.Subperm entries := by
  obtain ⟨groups, hfits, hperm⟩ := h
  induction hfits generalizing entries with
  | nil => cases hrow
  | @cons first group rest groups hfirst _ ih =>
    rw [List.flatten_cons] at hperm
    cases List.mem_cons.mp hrow with
    | inl heq =>
      subst heq
      exact ⟨group, hfirst, (List.sublist_append_left group _).subperm.trans hperm.subperm⟩
    | inr hmem =>
      obtain ⟨found, hfound, hsub⟩ := ih hmem (List.Perm.refl _)
      refine ⟨found, hfound, hsub.trans ?_⟩
      exact (List.sublist_append_right group _).subperm.trans hperm.subperm

/-- An entry goes to a row that is there already, which then fits one entry more. -/
theorem Dealt.grow {row row' : R} {entry : E}
    (h : Dealt fits (rows ++ row :: rows') entries)
    (hgrow : ∀ group, fits row group → fits row' (group ++ [entry])) :
    Dealt fits (rows ++ row' :: rows') (entries ++ [entry]) := by
  have hfront : Dealt fits (row :: (rows ++ rows')) entries :=
    h.perm_rows List.perm_middle.symm
  obtain ⟨groups, hfits, hperm⟩ := hfront
  cases hfits with
  | @cons _ group _ groups hrow hrest =>
    have hnew : Dealt fits (row' :: (rows ++ rows')) (entries ++ [entry]) := by
      refine ⟨(group ++ [entry]) :: groups, .cons (hgrow group hrow) hrest, ?_⟩
      rw [List.flatten_cons] at hperm ⊢
      calc (group ++ [entry] ++ groups.flatten).Perm (group ++ groups.flatten ++ [entry]) := by
            rw [List.append_assoc, List.append_assoc]
            exact List.perm_append_comm.append_left group
        _ |>.Perm (entries ++ [entry]) := hperm.append_right [entry]
    exact hnew.perm_rows List.perm_middle

end EventRecorder.Theory
