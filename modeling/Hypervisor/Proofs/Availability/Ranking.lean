/-
The ranking of the nodes of a group.

A ranking rearranges the nodes: those with a priority come first, be it priority 0, higher priorities before lower ones,
and nodes that it does not tell apart stay in listed order (`NodeList.Ranks`). These conditions leave one ranking for
each list, and it is the one that `byPriority` gives. A list that was read, under whatever dialect, is read again from
the text that is written for it, since a priority is written with no character that it was not read from; so its ranking
stays what it was.
-/
import Hypervisor.Proofs.Availability.Lasting

namespace Hypervisor.Availability.NodeList

open Fallible

/-! ## Ranks -/

/-- a member ranks no higher than another if its priority is no higher; no priority is below them all -/
theorem rank_le_iff {a b : Member} :
    rank b ≤ rank a ↔ (b.priority.isSome → a.priority.isSome) ∧ ∀ p ∈ a.priority, ∀ q ∈ b.priority, q.val ≤ p.val := by
  have hnonneg (p : U32) : 0 ≤ p.val := p.low_le
  unfold rank
  cases ha : a.priority with
  | none =>
    cases hb : b.priority with
    | none => simp
    | some q => simpa using Int.lt_of_lt_of_le (by decide) (hnonneg q)
  | some p =>
    cases hb : b.priority with
    | none => simpa using le_trans (by decide) (hnonneg p)
    | some q => simp

/-- members of one rank have the same priority, or none -/
theorem rank_eq_iff {a b : Member} : rank a = rank b ↔ a.priority = b.priority := by
  constructor
  · intro h
    obtain ⟨hab, hle⟩ := rank_le_iff.1 h.ge
    obtain ⟨hba, hge⟩ := rank_le_iff.1 h.le
    cases ha : a.priority with
    | none =>
      have hb : ¬b.priority.isSome := fun hb => by simpa [ha] using hab hb
      exact (Option.not_isSome_iff_eq_none.1 hb).symm
    | some p =>
      obtain ⟨q, hb⟩ := Option.isSome_iff_exists.1 (hba (by simp [ha]))
      have hval : q.val = p.val := le_antisymm (hle p ha q hb) (hge q hb p ha)
      rw [hb, ← p.ofInt?_val, ← hval, q.ofInt?_val]
  · intro h
    rw [rank, rank, h]

/-! Sorting asks for an order that is total and transitive. -/

theorem rank_trans (a b c : Member) (hab : decide (rank b ≤ rank a) = true) (hbc : decide (rank c ≤ rank b) = true) :
    decide (rank c ≤ rank a) = true :=
  decide_eq_true ((of_decide_eq_true hbc).trans (of_decide_eq_true hab))

theorem rank_total (a b : Member) : (decide (rank b ≤ rank a) || decide (rank a ≤ rank b)) = true := by
  rw [Bool.or_eq_true, decide_eq_true_iff, decide_eq_true_iff]
  exact Int.le_total _ _

/-! ## Rankings -/

/-- members of one priority stand in the same order in both lists, and so do those without one -/
def KeepsOrder (ranking listed : List Member) : Prop :=
  ∀ priority : Option U32,
    ranking.filter (fun m => m.priority = priority) = listed.filter (fun m => m.priority = priority)

/-- the members in the order in which they are preferred -/
structure Ranks (l : NodeList) (ranking : List Member) : Prop where
  /-- each member as often as it is listed -/
  perm : ranking.Perm l.members
  /-- a member with a priority, be it 0, comes before every member without one -/
  prioritized_first : ranking.Pairwise fun a b => b.priority.isSome → a.priority.isSome
  descending : ranking.Pairwise fun a b => ∀ p ∈ a.priority, ∀ q ∈ b.priority, q.val ≤ p.val
  stable : KeepsOrder ranking l.members

theorem Ranks.sorted {l : NodeList} {ranking : List Member} (h : l.Ranks ranking) :
    ranking.Pairwise fun a b => rank b ≤ rank a := (h.prioritized_first.and h.descending).imp rank_le_iff.2

theorem byPriority_sorted (l : NodeList) : l.byPriority.Pairwise fun a b => rank b ≤ rank a :=
  (List.pairwise_mergeSort rank_trans rank_total l.members).imp of_decide_eq_true

theorem byPriority_stable (l : NodeList) : KeepsOrder l.byPriority l.members := by
  intro priority
  have hequal : (l.members.filter fun m => m.priority = priority).Pairwise fun a b => rank b ≤ rank a := by
    refine List.pairwise_of_forall_mem_list fun a ha b hb => (rank_eq_iff.2 ?_).ge
    have ha := of_decide_eq_true (List.mem_filter.1 ha).2
    have hb := of_decide_eq_true (List.mem_filter.1 hb).2
    exact ha.trans hb.symm
  -- members of one rank are sorted as they are listed, so sorting leaves them in that order
  have hsublist : (l.members.filter fun m => m.priority = priority).Sublist l.byPriority :=
    List.sublist_mergeSort rank_trans rank_total (hequal.imp decide_eq_true) List.filter_sublist
  have hkept := hsublist.filter fun m => m.priority = priority
  simp only [List.filter_filter, Bool.and_self] at hkept
  exact (hkept.eq_of_length ((List.mergeSort_perm _ _).filter _).length_eq.symm).symm

theorem ranks_byPriority (l : NodeList) : l.Ranks l.byPriority := by
  have hranks := l.byPriority_sorted.imp rank_le_iff.1
  exact ⟨List.mergeSort_perm _ _, hranks.imp And.left, hranks.imp And.right, l.byPriority_stable⟩

/-! ## There is one ranking -/

theorem KeepsOrder.mem_iff {ranking listed : List Member} (h : KeepsOrder ranking listed) {m : Member} :
    m ∈ ranking ↔ m ∈ listed := by
  have hmem := congrArg (m ∈ ·) (h m.priority)
  simpa using hmem

theorem KeepsOrder.of_cons {m : Member} {rest rest' : List Member} (h : KeepsOrder (m :: rest) (m :: rest')) :
    KeepsOrder rest rest' := by
  intro priority
  have hlists := h priority
  simp only [List.filter_cons] at hlists
  split_ifs at hlists
  · exact (List.cons.inj hlists).2
  · exact hlists

/-- the first of the sorted members ranks as high as any -/
theorem rank_le_head {a b : Member} {rest : List Member}
    (hsorted : (a :: rest).Pairwise fun a b => rank b ≤ rank a) (hb : b ∈ a :: rest) : rank b ≤ rank a := by
  rcases List.mem_cons.1 hb with rfl | hb
  · exact le_rfl
  · exact List.rel_of_pairwise_cons hsorted hb

/-- members that are sorted and keep their order can be arranged in one way only -/
theorem KeepsOrder.eq_of_sorted {ranking ranking' : List Member} (hsame : KeepsOrder ranking ranking')
    (h : ranking.Pairwise fun a b => rank b ≤ rank a) (h' : ranking'.Pairwise fun a b => rank b ≤ rank a) :
    ranking = ranking' := by
  induction ranking generalizing ranking' with
  | nil =>
    refine (List.eq_nil_iff_forall_not_mem.2 fun m hm => ?_).symm
    cases hsame.mem_iff.2 hm
  | cons a rest ih =>
    cases ranking' with
    | nil => cases hsame.mem_iff.1 (List.mem_cons_self : a ∈ a :: rest)
    | cons b rest' =>
      -- each of the two heads is found in the other list, so neither ranks above the other
      have hle := rank_le_head h (hsame.mem_iff.2 List.mem_cons_self)
      have hge := rank_le_head h' (hsame.mem_iff.1 List.mem_cons_self)
      have hpriority : a.priority = b.priority := rank_eq_iff.1 (le_antisymm hge hle)
      have hheads := hsame b.priority
      rw [List.filter_cons_of_pos (by simpa using hpriority), List.filter_cons_of_pos (by simp)] at hheads
      obtain rfl : a = b := (List.cons.inj hheads).1
      rw [ih hsame.of_cons h.tail h'.tail]

theorem ranks_iff {l : NodeList} {ranking : List Member} : l.Ranks ranking ↔ ranking = l.byPriority := by
  constructor
  · intro h
    have hsame : KeepsOrder ranking l.byPriority := fun priority =>
      (h.stable priority).trans (l.byPriority_stable priority).symm
    exact hsame.eq_of_sorted h.sorted l.byPriority_sorted
  · rintro rfl
    exact l.ranks_byPriority

/-! ## Reading again -/

/-- a dialect that carries an entry carries what is written for the member that was read from it -/
theorem entryOf_wellFormed {d : Dialect} {e : Entry} {m : Member} (he : e.WellFormed d) (h : memberOf e = .ok m) :
    (entryOf m).WellFormed d := by
  obtain ⟨hkey, hvalue⟩ := memberOf_eq_ok.1 h
  unfold entryOf
  rw [← hkey]
  rcases hvalue with ⟨hnone, hpriority⟩ | ⟨raw, p, hsome, hread, hpriority⟩
  · rw [hpriority]
    exact ⟨he.key_ne_empty, he.list_not_mem_key, he.entry_not_mem_key, nofun, fun _ => he.bare hnone,
      fun h => absurd rfl h⟩
  · rw [hpriority]
    refine ⟨he.key_ne_empty, he.list_not_mem_key, he.entry_not_mem_key, ?_, nofun, fun _ => he.valued (by simp [hsome])⟩
    rintro _ ⟨⟩ hmem
    exact he.list_not_mem_value raw hsome ((Ranged.read?_eq_some_iff.1 hread).integerText_subset hmem)

/-- a list that was read is read again from its text -/
theorem roundTrips_of_decode {d : Dialect} {v : Value} {l : NodeList} (h : Wire.decode d v = .ok l) :
    Wire.RoundTrips d l := by
  obtain ⟨raw, rfl⟩ := Packed.exists_text_of_decode h
  obtain ⟨list, hparse, hlist⟩ := Packed.decode_text_eq_ok.1 h
  obtain ⟨-, hread⟩ := EntryList.parse_eq_ok_iff.1 hparse
  have hmembers := ofEntries_eq_ok.1 hlist
  have hwritten : l.toEntries.WellFormed d := by
    refine ⟨?_, (write_toEntries_le hlist).trans hread.size, List.forall_mem_map.2 fun m hm => ?_⟩
    · rw [toEntries, List.length_map, ← hmembers.length_eq]
      exact hread.count
    · obtain ⟨e, he, hm⟩ := exists_of_mem_right hmembers hm
      exact entryOf_wellFormed (hread.entries e he) hm
  exact ⟨_, l.encode_eq, Packed.decode_text_eq_ok.2
    ⟨l.toEntries, EntryList.parse_eq_ok_iff.2 ⟨rfl, hwritten⟩, l.ofEntries_toEntries⟩⟩

/-- **Nodes are ranked stably, the highest priority first.** Of all lists of members, `byPriority` gives the one that
holds each member as often as it is listed, those with a priority before those without one, priorities never increasing,
and members of one priority, or of none, in listed order. If the nodes were read, under whatever dialect and from
whatever value, they have a text, and what is read from it is ranked the same. -/
theorem ranked_stably_highest_first :
    (∀ (l : NodeList) (ranking : List Member), l.Ranks ranking ↔ ranking = l.byPriority) ∧
      ∀ (d : Dialect) (v : Value) (l : NodeList), Wire.decode d v = .ok l →
        ∃ w, Wire.encode d l = .ok (some w) ∧ (Wire.decode d (.text w)).map byPriority = .ok l.byPriority := by
  refine ⟨fun _ _ => ranks_iff, fun d v l h => ?_⟩
  obtain ⟨w, hw, hread⟩ := roundTrips_of_decode h
  exact ⟨w, hw, map_eq_ok.2 ⟨l, hread, rfl⟩⟩

/-- two nodes of one priority, one of them listed twice, another with priority 0, and two without a priority -/
theorem ranked_stably_highest_first_ties :
    ∃ l : NodeList,
      Wire.decode .nodePriority (.text "pve4,pve1:007,pve2:0,pve3:7,pve1:7,pve5") = .ok l ∧
        l.byPriority.map (fun m => (m.node, m.priority.map Ranged.val)) =
          [("pve1", some 7), ("pve3", some 7), ("pve1", some 7), ("pve2", some 0), ("pve4", none), ("pve5", none)] ∧
        ∃ w, Wire.encode .nodePriority l = .ok (some w) ∧
          (Wire.decode .nodePriority (.text w)).map byPriority = .ok l.byPriority := by
  have hread : Wire.decode .nodePriority (.text "pve4,pve1:007,pve2:0,pve3:7,pve1:7,pve5") =
      .ok (⟨[⟨"pve4", none⟩, ⟨"pve1", Ranged.ofInt? .u32 7⟩, ⟨"pve2", Ranged.ofInt? .u32 0⟩,
        ⟨"pve3", Ranged.ofInt? .u32 7⟩, ⟨"pve1", Ranged.ofInt? .u32 7⟩, ⟨"pve5", none⟩]⟩ : NodeList) := rfl
  exact ⟨_, hread, by cbv, ranked_stably_highest_first.2 _ _ _ hread⟩

end Hypervisor.Availability.NodeList
