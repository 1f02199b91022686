import IssueSearch.Proofs.Ranking.Run
/-!
Two runs are merged into one. `Underway` is what holds of a merge from its start to its end, and
`Follows` what any part of its way comes to; a merge that is followed far enough is over.
-/
namespace IssueSearch.Ranking

variable {α : Type} {lt : α → α → Bool} {p : α → Prop}

/-- An item may be met before another: in ascending order, or in descending order if runs are met
from their ends. -/
def Met (lt : α → α → Bool) (backward : Bool) (a b : α) : Prop :=
  (if backward then lt a b else lt b a) = false

theorem Met.trans (horders : Orders lt p) {backward : Bool} {a b c : α} (ha : p a) (hb : p b)
    (hc : p c) (hab : Met lt backward a b) (hbc : Met lt backward b c) : Met lt backward a c := by
  cases backward with
  | true => exact horders.trans hc hb ha hbc hab
  | false => exact horders.trans ha hb hc hab hbc

namespace Merging

/-- All items that there are. -/
def items (m : Merging α) : List α := m.first ++ m.second ++ m.taken

/-- The last item of the run put aside is met behind all items of the other run. -/
def Outlasts (lt : α → α → Bool) (m : Merging α) : Prop :=
  if m.backward then ∃ others y, m.second = others ++ [y] ∧ ∀ x ∈ m.first, lt y x = true
  else ∃ others x, m.first = others ++ [x] ∧ ∀ y ∈ m.second, lt y x = true

/-- What holds of two runs on their way into one. -/
structure Underway (lt : α → α → Bool) (p : α → Prop) (m : Merging α) : Prop where
  all : ∀ a ∈ m.items, p a
  first : m.first.Pairwise (Met lt m.backward)
  second : m.second.Pairwise (Met lt m.backward)
  taken : m.taken.Pairwise fun a b => Met lt m.backward b a
  apart : ∀ a ∈ m.taken, ∀ b ∈ m.first ++ m.second, Met lt m.backward a b
  outlasts : m.Outlasts lt

variable {m : Merging α}

theorem Underway.of_mem_first (hunder : m.Underway lt p) {x : α} (hx : x ∈ m.first) : p x :=
  hunder.all x (by simp [items, hx])

theorem Underway.of_mem_second (hunder : m.Underway lt p) {y : α} (hy : y ∈ m.second) : p y :=
  hunder.all y (by simp [items, hy])

/-! ### Taking items -/

theorem items_takeFirst (m : Merging α) (count : Nat) : (m.takeFirst count).items.Perm m.items := by
  classical
  refine List.perm_iff_count.2 fun a => ?_
  have hsplit := congrArg (List.count a) (List.take_append_drop count m.first)
  simp only [items, takeFirst, List.count_append, List.count_reverse] at hsplit ⊢
  omega

theorem items_takeSecond (m : Merging α) (count : Nat) :
    (m.takeSecond count).items.Perm m.items := by
  classical
  refine List.perm_iff_count.2 fun a => ?_
  have hsplit := congrArg (List.count a) (List.take_append_drop count m.second)
  simp only [items, takeSecond, List.count_append, List.count_reverse] at hsplit ⊢
  omega

/-- The item that goes first may be met first. -/
theorem met_of_goesFirst (horders : Orders lt p) {x y : α} (hx : p x) (hy : p y)
    (hgoes : m.goesFirst lt x y = true) : Met lt m.backward x y := by
  rw [goesFirst, beq_iff_eq] at hgoes
  rw [Met]
  cases hback : m.backward with
  | true =>
      rw [hback] at hgoes
      exact horders.asymm hy hx hgoes
  | false =>
      rw [hback] at hgoes
      exact hgoes

theorem met_of_not_goesFirst (horders : Orders lt p) {x y : α} (hx : p x) (hy : p y)
    (hgoes : m.goesFirst lt x y = false) : Met lt m.backward y x := by
  rw [goesFirst, beq_eq_false_iff_ne] at hgoes
  rw [Met]
  cases hback : m.backward with
  | true =>
      rw [hback] at hgoes
      exact Bool.eq_false_iff.2 hgoes
  | false =>
      rw [hback, Bool.ne_false_iff] at hgoes
      exact horders.asymm hy hx hgoes

/-- A merge goes on with an item that may be met before all others that are left. -/
theorem Underway.take (hunder : m.Underway lt p) {a : α} {first second : List α}
    (ha : a ∈ m.first ++ m.second) (hfirst : first.Sublist m.first)
    (hsecond : second.Sublist m.second)
    (hmet : ∀ b ∈ first ++ second, Met lt m.backward a b)
    (hlast : Outlasts lt { m with first, second, taken := a :: m.taken }) :
    Underway lt p { m with first, second, taken := a :: m.taken } := by
  have hleft : ∀ b ∈ first ++ second, b ∈ m.first ++ m.second := fun b hb =>
    (hfirst.append hsecond).subset hb
  refine ⟨fun b hb => ?_, hunder.first.sublist hfirst, hunder.second.sublist hsecond, ?_, ?_, hlast⟩
  · rcases List.mem_append.1 hb with hb | hb
    · exact hunder.all b (List.mem_append_left _ (hleft b hb))
    · rcases List.mem_cons.1 hb with rfl | hb
      · exact hunder.all b (List.mem_append_left _ ha)
      · exact hunder.all b (List.mem_append_right _ hb)
  · exact List.pairwise_cons.2 ⟨fun b hb => hunder.apart b hb a ha, hunder.taken⟩
  · intro b hb c hc
    rcases List.mem_cons.1 hb with rfl | hb
    · exact hmet c hc
    · exact hunder.apart b hb c (hleft c hc)

theorem Underway.takeFirst_one (horders : Orders lt p) (hunder : m.Underway lt p) {x y : α}
    {xs ys : List α} (hfirst : m.first = x :: xs) (hsecond : m.second = y :: ys)
    (hgoes : m.goesFirst lt x y = true) : (m.takeFirst 1).Underway lt p := by
  have htake : m.takeFirst 1 = { m with first := xs, taken := x :: m.taken } := by
    simp [takeFirst, hfirst]
  have hx := hunder.of_mem_first (show x ∈ m.first by simp [hfirst])
  have hy := hunder.of_mem_second (show y ∈ m.second by simp [hsecond])
  have hmet := met_of_goesFirst horders hx hy hgoes
  have hfirsts := hunder.first
  have hseconds := hunder.second
  rw [hfirst] at hfirsts
  rw [hsecond] at hseconds
  rw [htake]
  refine hunder.take (by simp [hfirst]) (hfirst ▸ List.sublist_cons_self x xs) (.refl _) ?_ ?_
  · intro b hb
    rw [hsecond] at hb
    rcases List.mem_append.1 hb with hb | hb
    · exact List.rel_of_pairwise_cons hfirsts hb
    · rcases List.mem_cons.1 hb with rfl | hb
      · exact hmet
      · have hb' := hunder.of_mem_second (show b ∈ m.second by simp [hsecond, hb])
        exact hmet.trans horders hx hy hb' (List.rel_of_pairwise_cons hseconds hb)
  · have hlast := hunder.outlasts
    rw [Outlasts] at hlast ⊢
    dsimp only
    split
    · rename_i hback
      rw [if_pos hback] at hlast
      obtain ⟨others, last, hseconds, hbehind⟩ := hlast
      exact ⟨others, last, hseconds, fun z hz => hbehind z (by simp [hfirst, hz])⟩
    · rename_i hback
      rw [if_neg hback] at hlast
      obtain ⟨others, last, hfirsts, hbehind⟩ := hlast
      rw [hfirst] at hfirsts
      cases others with
      | nil =>
          -- the last item of the first run does not go first
          obtain ⟨rfl, -⟩ := List.cons.inj hfirsts
          rw [goesFirst, hbehind y (by simp [hsecond]), beq_iff_eq] at hgoes
          exact absurd hgoes.symm hback
      | cons other others =>
          obtain ⟨-, rfl⟩ := List.cons.inj hfirsts
          exact ⟨others, last, rfl, hbehind⟩

theorem Underway.takeSecond_one (horders : Orders lt p) (hunder : m.Underway lt p) {x y : α}
    {xs ys : List α} (hfirst : m.first = x :: xs) (hsecond : m.second = y :: ys)
    (hgoes : m.goesFirst lt x y = false) : (m.takeSecond 1).Underway lt p := by
  have htake : m.takeSecond 1 = { m with second := ys, taken := y :: m.taken } := by
    simp [takeSecond, hsecond]
  have hx := hunder.of_mem_first (show x ∈ m.first by simp [hfirst])
  have hy := hunder.of_mem_second (show y ∈ m.second by simp [hsecond])
  have hmet := met_of_not_goesFirst horders hx hy hgoes
  have hfirsts := hunder.first
  have hseconds := hunder.second
  rw [hfirst] at hfirsts
  rw [hsecond] at hseconds
  rw [htake]
  refine hunder.take (by simp [hsecond]) (.refl _) (hsecond ▸ List.sublist_cons_self y ys) ?_ ?_
  · intro b hb
    rw [hfirst] at hb
    rcases List.mem_append.1 hb with hb | hb
    · rcases List.mem_cons.1 hb with rfl | hb
      · exact hmet
      · have hb' := hunder.of_mem_first (show b ∈ m.first by simp [hfirst, hb])
        exact hmet.trans horders hy hx hb' (List.rel_of_pairwise_cons hfirsts hb)
    · exact List.rel_of_pairwise_cons hseconds hb
  · have hlast := hunder.outlasts
    rw [Outlasts] at hlast ⊢
    dsimp only
    split
    · rename_i hback
      rw [if_pos hback] at hlast
      obtain ⟨others, last, hseconds, hbehind⟩ := hlast
      rw [hsecond] at hseconds
      cases others with
      | nil =>
          -- the last item of the second run goes behind the first run
          obtain ⟨rfl, -⟩ := List.cons.inj hseconds
          rw [goesFirst, hbehind x (by simp [hfirst]), hback] at hgoes
          cases hgoes
      | cons other others =>
          obtain ⟨-, rfl⟩ := List.cons.inj hseconds
          exact ⟨others, last, rfl, hbehind⟩
    · rename_i hback
      rw [if_neg hback] at hlast
      obtain ⟨others, last, hfirsts, hbehind⟩ := hlast
      exact ⟨others, last, hfirsts, fun z hz => hbehind z (by simp [hsecond, hz])⟩

/-- Items of the first run that go before the second's next one may be taken together. -/
theorem Underway.takeFirst (horders : Orders lt p) {y : α} {ys : List α} (count : Nat)
    (hunder : m.Underway lt p) (hsecond : m.second = y :: ys)
    (hgoes : ∀ x ∈ m.first.take count, m.goesFirst lt x y = true) :
    (m.takeFirst count).Underway lt p := by
  induction count generalizing m with
  | zero => simpa [Merging.takeFirst] using hunder
  | succ count ih =>
      cases hfirst : m.first with
      | nil =>
          have hsame : m.takeFirst (count + 1) = m := by
            cases m
            cases hfirst
            simp [Merging.takeFirst]
          rw [hsame]
          exact hunder
      | cons x xs =>
          have hsame : m.takeFirst (count + 1) = (m.takeFirst 1).takeFirst count := by
            simp [Merging.takeFirst, hfirst]
          rw [hsame]
          rw [hfirst] at hgoes
          refine ih (hunder.takeFirst_one horders hfirst hsecond (hgoes x (by simp))) hsecond ?_
          intro z hz
          refine hgoes z ?_
          rw [Merging.takeFirst, hfirst] at hz
          exact List.mem_cons_of_mem x hz

/-- Items of the second run that go before the first's next one may be taken together. -/
theorem Underway.takeSecond (horders : Orders lt p) {x : α} {xs : List α} (count : Nat)
    (hunder : m.Underway lt p) (hfirst : m.first = x :: xs)
    (hgoes : ∀ y ∈ m.second.take count, m.goesFirst lt x y = false) :
    (m.takeSecond count).Underway lt p := by
  induction count generalizing m with
  | zero => simpa [Merging.takeSecond] using hunder
  | succ count ih =>
      cases hsecond : m.second with
      | nil =>
          have hsame : m.takeSecond (count + 1) = m := by
            cases m
            cases hsecond
            simp [Merging.takeSecond]
          rw [hsame]
          exact hunder
      | cons y ys =>
          have hsame : m.takeSecond (count + 1) = (m.takeSecond 1).takeSecond count := by
            simp [Merging.takeSecond, hsecond]
          rw [hsame]
          rw [hsecond] at hgoes
          refine ih (hunder.takeSecond_one horders hfirst hsecond (hgoes y (by simp))) hfirst ?_
          intro z hz
          refine hgoes z ?_
          rw [Merging.takeSecond, hsecond] at hz
          exact List.mem_cons_of_mem y hz

/-! ### What a part of the way comes to -/

/-- A merge comes from another: the items are the same, and it is still underway. -/
structure Follows (lt : α → α → Bool) (p : α → Prop) (m m' : Merging α) : Prop where
  items : m'.items.Perm m.items
  size_le : m'.size ≤ m.size
  underway : Orders lt p → m.Underway lt p → m'.Underway lt p

theorem Follows.refl (m : Merging α) : Follows lt p m m := ⟨.refl _, Nat.le_refl _, fun _ h => h⟩

theorem Follows.trans {m m' m'' : Merging α} (hfirst : Follows lt p m m')
    (hsecond : Follows lt p m' m'') : Follows lt p m m'' where
  items := hsecond.items.trans hfirst.items
  size_le := Nat.le_trans hsecond.size_le hfirst.size_le
  underway horders hunder := hsecond.underway horders (hfirst.underway horders hunder)

theorem size_takeFirst_le (m : Merging α) (count : Nat) : (m.takeFirst count).size ≤ m.size := by
  simp only [size, takeFirst, List.length_drop]
  omega

theorem size_takeSecond_le (m : Merging α) (count : Nat) : (m.takeSecond count).size ≤ m.size := by
  simp only [size, takeSecond, List.length_drop]
  omega

/-- As long as a merge is not over, either run has a next item. -/
theorem exists_next (hover : m.isOver = false) :
    (∃ x xs, m.first = x :: xs) ∧ ∃ y ys, m.second = y :: ys := by
  rw [isOver] at hover
  cases hfirst : m.first <;> cases hsecond : m.second <;>
    cases hback : m.backward <;> simp_all [isLow]

/-- The items of the first run that go before the second's next one are the first in the run. -/
theorem Underway.lead_cuts (horders : Orders lt p) (hunder : m.Underway lt p) {y : α} {ys : List α}
    (hsecond : m.second = y :: ys) :
    Cuts (fun x => m.goesFirst lt x y) m.first (m.lead lt) := by
  rw [lead, hsecond]
  refine gallop_cuts _ (hunder.first.imp_of_mem fun {a b} ha hb hmet hgoes => ?_)
  have hy := hunder.of_mem_second (show y ∈ m.second by simp [hsecond])
  replace ha := hunder.of_mem_first ha
  replace hb := hunder.of_mem_first hb
  cases hback : m.backward with
  | true =>
      rw [hback] at hmet
      simp only [goesFirst, hback, beq_true] at hgoes ⊢
      rw [← Bool.not_eq_false]
      intro hbehind
      rw [horders.trans hb ha hy hmet hbehind] at hgoes
      cases hgoes
  | false =>
      rw [hback] at hmet
      simp only [goesFirst, hback, beq_false, Bool.not_eq_true'] at hgoes ⊢
      exact horders.trans ha hb hy hmet hgoes

/-- The items of the second run that go before the first's next one are the first in the run. -/
theorem Underway.trail_cuts (horders : Orders lt p) (hunder : m.Underway lt p) {x : α} {xs : List α}
    (hfirst : m.first = x :: xs) :
    Cuts (fun y => !m.goesFirst lt x y) m.second (m.trail lt) := by
  rw [trail, hfirst]
  refine gallop_cuts _ (hunder.second.imp_of_mem fun {a b} ha hb hmet hgoes => ?_)
  have hx := hunder.of_mem_first (show x ∈ m.first by simp [hfirst])
  replace ha := hunder.of_mem_second ha
  replace hb := hunder.of_mem_second hb
  cases hback : m.backward with
  | true =>
      rw [hback] at hmet
      simp only [goesFirst, hback, beq_true, Bool.not_eq_true'] at hgoes ⊢
      exact horders.trans hx hb ha hgoes hmet
  | false =>
      rw [hback] at hmet
      simp only [goesFirst, hback, beq_false, Bool.not_not] at hgoes ⊢
      rw [← Bool.not_eq_false]
      intro hbehind
      rw [horders.trans hx ha hb hbehind hmet] at hgoes
      cases hgoes

theorem follows_lead (hover : m.isOver = false) : Follows lt p m (m.takeFirst (m.lead lt)) where
  items := items_takeFirst m _
  size_le := size_takeFirst_le m _
  underway horders hunder := by
    obtain ⟨-, y, ys, hsecond⟩ := exists_next hover
    exact hunder.takeFirst horders _ hsecond (hunder.lead_cuts horders hsecond).passes

theorem follows_trail (hover : m.isOver = false) : Follows lt p m (m.takeSecond (m.trail lt)) where
  items := items_takeSecond m _
  size_le := size_takeSecond_le m _
  underway horders hunder := by
    obtain ⟨⟨x, xs, hfirst⟩, -⟩ := exists_next hover
    refine hunder.takeSecond horders _ hfirst fun y hy => ?_
    exact (Bool.not_eq_true' _).mp ((hunder.trail_cuts horders hfirst).passes y hy)

/-- Behind the items of the first run that go before it, the second's next one is next. -/
theorem follows_lead_second (hover : m.isOver = false)
    (hover' : (m.takeFirst (m.lead lt)).isOver = false) :
    Follows lt p m ((m.takeFirst (m.lead lt)).takeSecond 1) where
  items := (items_takeSecond _ 1).trans (items_takeFirst m _)
  size_le := Nat.le_trans (size_takeSecond_le _ 1) (size_takeFirst_le m _)
  underway horders hunder := by
    obtain ⟨-, y, ys, hsecond⟩ := exists_next hover
    obtain ⟨⟨x, xs, hfirst⟩, -⟩ := exists_next hover'
    have hcuts := hunder.lead_cuts horders hsecond
    refine ((follows_lead hover).underway horders hunder).takeSecond_one horders hfirst hsecond ?_
    refine hcuts.fails x ?_
    change m.first.drop _ = _ at hfirst
    rw [hfirst]
    exact List.mem_cons_self

/-- Behind the items of the second run that go before it, the first's next one is next. -/
theorem follows_trail_first (hover : m.isOver = false)
    (hover' : (m.takeSecond (m.trail lt)).isOver = false) :
    Follows lt p m ((m.takeSecond (m.trail lt)).takeFirst 1) where
  items := (items_takeFirst _ 1).trans (items_takeSecond m _)
  size_le := Nat.le_trans (size_takeFirst_le _ 1) (size_takeSecond_le m _)
  underway horders hunder := by
    obtain ⟨⟨x, xs, hfirst⟩, -⟩ := exists_next hover
    obtain ⟨-, y, ys, hsecond⟩ := exists_next hover'
    have hcuts := hunder.trail_cuts horders hfirst
    refine ((follows_trail hover).underway horders hunder).takeFirst_one horders hfirst hsecond ?_
    refine (Bool.not_eq_false' _).mp (hcuts.fails y ?_)
    change m.second.drop _ = _ at hsecond
    rw [hsecond]
    exact List.mem_cons_self

theorem pick_follows (patience fuel wonFirst wonSecond : Nat) (m : Merging α) :
    Follows lt p m (pick lt patience fuel wonFirst wonSecond m) := by
  induction fuel generalizing wonFirst wonSecond m with
  | zero => exact .refl m
  | succ fuel ih =>
      rw [pick]
      split
      · exact .refl m
      · split
        · rename_i x xs y ys hfirst hsecond
          cases hgoes : m.goesFirst lt x y with
          | true =>
              rw [if_pos rfl]
              refine .trans ⟨items_takeFirst m 1, size_takeFirst_le m 1, fun horders hunder => ?_⟩
                (ih (wonFirst + 1) 0 _)
              exact hunder.takeFirst_one horders hfirst hsecond hgoes
          | false =>
              rw [if_neg Bool.false_ne_true]
              refine .trans ⟨items_takeSecond m 1, size_takeSecond_le m 1, fun horders hunder => ?_⟩
                (ih 0 (wonSecond + 1) _)
              exact hunder.takeSecond_one horders hfirst hsecond hgoes
        · exact .refl m

variable (lt p) in
/-- Strides end with a merge that is over, or take an item at least. -/
theorem leap_follows (fuel patience : Nat) {m : Merging α} (hover : m.isOver = false) :
    Follows lt p m (leap lt fuel patience m).1 ∧
      (0 < fuel → (leap lt fuel patience m).1.isOver = true ∨
        (leap lt fuel patience m).1.size < m.size) := by
  induction fuel generalizing patience m with
  | zero => exact ⟨.refl m, fun h => absurd h (Nat.lt_irrefl 0)⟩
  | succ fuel ih =>
      rw [leap]
      dsimp only
      generalize (if 1 < patience then patience - 1 else patience) = patience
      cases hlead : (m.takeFirst (m.lead lt)).isOver with
      | true =>
          rw [if_pos rfl]
          exact ⟨follows_lead hover, fun _ => .inl hlead⟩
      | false =>
          rw [if_neg Bool.false_ne_true]
          have hfollows : Follows lt p m _ := follows_lead_second hover hlead
          have hless : ((m.takeFirst (m.lead lt)).takeSecond 1).size < m.size := by
            obtain ⟨-, y, ys, hsecond⟩ := exists_next hlead
            have hshort := size_takeFirst_le m (m.lead lt)
            simp only [size, takeSecond, hsecond, List.length_drop, List.length_cons] at hshort ⊢
            omega
          generalize (m.takeFirst (m.lead lt)).takeSecond 1 = m₂ at hfollows hless
          cases hover₂ : m₂.isOver with
          | true =>
              rw [if_pos rfl]
              exact ⟨hfollows, fun _ => .inl hover₂⟩
          | false =>
              rw [if_neg Bool.false_ne_true]
              cases htrail : (m₂.takeSecond (m₂.trail lt)).isOver with
              | true =>
                  rw [if_pos rfl]
                  exact ⟨hfollows.trans (follows_trail hover₂), fun _ => .inl htrail⟩
              | false =>
                  rw [if_neg Bool.false_ne_true]
                  have hfollows₄ := hfollows.trans (follows_trail_first hover₂ htrail)
                  have hless₄ : ((m₂.takeSecond (m₂.trail lt)).takeFirst 1).size < m.size :=
                    Nat.lt_of_le_of_lt (follows_trail_first (p := p) hover₂ htrail).size_le hless
                  generalize (m₂.takeSecond (m₂.trail lt)).takeFirst 1 = m₄ at hfollows₄ hless₄
                  cases hover₄ : m₄.isOver with
                  | true =>
                      rw [if_pos rfl]
                      exact ⟨hfollows₄, fun _ => .inl hover₄⟩
                  | false =>
                      rw [if_neg Bool.false_ne_true]
                      split
                      · obtain ⟨hrest, -⟩ := ih patience hover₄
                        exact ⟨hfollows₄.trans hrest, fun _ =>
                          .inr (Nat.lt_of_le_of_lt hrest.size_le hless₄)⟩
                      · exact ⟨hfollows₄, fun _ => .inr hless₄⟩

variable (lt p) in
/-- A merge that is followed long enough is over. -/
theorem finish_follows (fuel patience : Nat) (m : Merging α) :
    Follows lt p m (finish lt fuel patience m).1 ∧
      (m.size ≤ fuel → (finish lt fuel patience m).1.isOver = true) := by
  induction fuel generalizing patience m with
  | zero =>
      rw [finish]
      refine ⟨.refl m, fun hsize => ?_⟩
      rw [← Bool.not_eq_false]
      intro hover
      obtain ⟨⟨x, xs, hfirst⟩, -⟩ := exists_next hover
      rw [size, hfirst, List.length_cons] at hsize
      omega
  | succ fuel ih =>
      rw [finish]
      dsimp only
      have hpick : Follows lt p m (pick lt patience m.size 0 0 m) :=
        pick_follows patience m.size 0 0 m
      generalize pick lt patience m.size 0 0 m = m₁ at hpick
      cases hover₁ : m₁.isOver with
      | true =>
          rw [if_pos rfl]
          exact ⟨hpick, fun _ => hover₁⟩
      | false =>
          rw [if_neg Bool.false_ne_true]
          have hpos : 0 < m₁.size := by
            obtain ⟨⟨x, xs, hfirst⟩, -⟩ := exists_next hover₁
            rw [size, hfirst, List.length_cons]
            omega
          obtain ⟨hleap, hless⟩ := leap_follows lt p m₁.size (patience + 1) hover₁
          generalize leap lt m₁.size (patience + 1) m₁ = leapt at hleap hless
          obtain ⟨m₂, patience₂⟩ := leapt
          have hfollows := hpick.trans hleap
          cases hover₂ : m₂.isOver with
          | true =>
              rw [if_pos rfl]
              exact ⟨hfollows, fun _ => hover₂⟩
          | false =>
              rw [if_neg Bool.false_ne_true]
              obtain ⟨hrest, hdone⟩ := ih patience₂ m₂
              refine ⟨hfollows.trans hrest, fun hsize => hdone ?_⟩
              have hsmaller := (hless hpos).resolve_left (by rw [hover₂]; exact Bool.false_ne_true)
              have hpicked := hpick.size_le
              dsimp only at hsmaller
              omega

/-! ### The merged run -/

theorem result_perm (m : Merging α) : m.result.Perm m.items := by
  classical
  refine List.perm_iff_count.2 fun a => ?_
  rw [result, items]
  split
  · simp only [List.count_append, List.count_reverse]
  · simp only [List.count_append, List.count_reverse]
    omega

theorem eq_of_mem_of_isLow {others : List α} {last a : α} (hlow : isLow (others ++ [last]) = true)
    (ha : a ∈ others ++ [last]) : a = last := by
  rcases others with _ | ⟨b, _ | ⟨c, others⟩⟩
  · exact List.mem_singleton.1 ha
  · cases hlow
  · cases hlow

/-- Once nothing is left to compare, the rest of one run goes before the rest of the other. -/
theorem Underway.rest_met (horders : Orders lt p) (hunder : m.Underway lt p)
    (hover : m.isOver = true) : ∀ x ∈ m.first, ∀ y ∈ m.second, lt x y = false := by
  intro x hx y hy
  refine horders.asymm (hunder.of_mem_second hy) (hunder.of_mem_first hx) ?_
  have hlast := hunder.outlasts
  have hempty : m.first.isEmpty = false ∧ m.second.isEmpty = false := by
    simp [List.ne_nil_of_mem hx, List.ne_nil_of_mem hy]
  rw [Outlasts] at hlast
  rw [isOver] at hover
  split at hlast
  · rename_i hback
    rw [if_pos hback, hempty.1, Bool.false_or] at hover
    obtain ⟨others, last, hsecond, hbehind⟩ := hlast
    rw [hsecond] at hover hy
    rw [eq_of_mem_of_isLow hover hy]
    exact hbehind x hx
  · rename_i hback
    rw [if_neg hback, hempty.2, Bool.false_or] at hover
    obtain ⟨others, last, hfirst, hbehind⟩ := hlast
    rw [hfirst] at hover hx
    rw [eq_of_mem_of_isLow hover hx]
    exact hbehind y hy

/-- Once nothing is left to compare, the result is in order. -/
theorem Underway.result_run (horders : Orders lt p) (hunder : m.Underway lt p)
    (hover : m.isOver = true) : Run lt p m.result := by
  refine ⟨fun a ha => hunder.all a (m.result_perm.subset ha), ?_⟩
  have hrest := hunder.rest_met horders hover
  obtain ⟨-, hfirst, hsecond, htaken, hapart, -⟩ := hunder
  rw [result]
  simp only [Met] at hfirst hsecond htaken hapart
  split
  · rename_i hback
    simp only [hback, if_pos] at hfirst hsecond htaken hapart
    refine List.pairwise_append.2 ⟨List.pairwise_reverse.2 ?_, htaken, fun a ha b hb => ?_⟩
    · exact List.pairwise_append.2 ⟨hfirst, hsecond, hrest⟩
    · exact hapart b hb a (List.mem_reverse.1 ha)
  · rename_i hback
    simp only [hback] at hfirst hsecond htaken hapart
    rw [List.append_assoc]
    refine List.pairwise_append.2 ⟨List.pairwise_reverse.2 htaken, ?_, fun a ha b hb => ?_⟩
    · exact List.pairwise_append.2 ⟨hsecond, hfirst, fun y hy x hx => hrest x hx y hy⟩
    · refine hapart a (List.mem_reverse.1 ha) b ?_
      simpa [or_comm] using hb

end Merging

open Merging

/-- The merge of two runs that reach past each other, once the item that goes first of all or last
of all is taken. -/
def start (xs ys : List α) : Merging α :=
  if xs.length ≤ ys.length then takeSecond { backward := false, first := xs, second := ys } 1
  else takeFirst { backward := true, first := xs.reverse, second := ys.reverse } 1

theorem interleave_eq (lt : α → α → Bool) (patience : Nat) (xs ys : List α) :
    (interleave lt patience xs ys).1 =
      ((start xs ys).finish lt (start xs ys).size patience).1.result := rfl

theorem items_start (xs ys : List α) : (start xs ys).items.Perm (xs ++ ys) := by
  rw [start]
  split
  · refine (items_takeSecond _ 1).trans (.of_eq ?_)
    simp [items]
  · refine (items_takeFirst _ 1).trans ?_
    rw [items, List.append_nil]
    exact (List.reverse_perm xs).append (List.reverse_perm ys)

theorem interleave_perm (lt : α → α → Bool) (patience : Nat) (xs ys : List α) :
    (interleave lt patience xs ys).1.Perm (xs ++ ys) := by
  rw [interleave_eq]
  have hfollows := (finish_follows lt (fun _ => True) (start xs ys).size patience (start xs ys)).1
  exact (result_perm _).trans (hfollows.items.trans (items_start xs ys))

theorem underway_start (horders : Orders lt p) {others : List α} {x y : α} {ys : List α}
    (hxs : Run lt p (others ++ [x])) (hys : Run lt p (y :: ys))
    (hfirst : ∀ a ∈ others ++ [x], lt y a = true) (hlast : ∀ b ∈ y :: ys, lt b x = true) :
    (start (others ++ [x]) (y :: ys)).Underway lt p := by
  have hall : ∀ a, a ∈ others ++ [x] ∨ a ∈ y :: ys → p a := fun a ha =>
    ha.elim (hxs.all a) (hys.all a)
  rw [start]
  split
  · have hunder : (⟨false, others ++ [x], y :: ys, []⟩ : Merging α).Underway lt p := by
      refine ⟨fun a ha => hall a ?_, hxs.ascends, hys.ascends, .nil, by simp, ?_⟩
      · simpa [items, or_assoc] using ha
      · exact ⟨others, x, rfl, hlast⟩
    obtain ⟨a, rest, hhead⟩ := List.exists_cons_of_ne_nil
      (List.append_ne_nil_of_right_ne_nil others (List.cons_ne_nil x []))
    refine hunder.takeSecond_one horders hhead rfl ?_
    rw [goesFirst, hfirst a (by simp [hhead])]
    rfl
  · have hunder : (⟨true, (others ++ [x]).reverse, (y :: ys).reverse, []⟩ :
        Merging α).Underway lt p := by
      refine ⟨fun a ha => hall a ?_, ?_, ?_, .nil, by simp, ?_⟩
      · simpa [items, or_comm, or_left_comm, or_assoc] using ha
      · exact List.pairwise_reverse.2 hxs.ascends
      · exact List.pairwise_reverse.2 hys.ascends
      · exact ⟨ys.reverse, y, List.reverse_cons, fun a ha => hfirst a (List.mem_reverse.1 ha)⟩
    obtain ⟨b, rest, hhead⟩ := List.exists_cons_of_ne_nil (List.reverse_ne_nil_iff.2
      (List.cons_ne_nil y ys))
    refine hunder.takeFirst_one horders (List.reverse_append) hhead ?_
    rw [goesFirst, hlast b (List.mem_reverse.1 (by simp [hhead]))]
    rfl

/-- Two runs that reach past each other are merged into a run. -/
theorem interleave_run (horders : Orders lt p) (patience : Nat) {others : List α} {x y : α}
    {ys : List α} (hxs : Run lt p (others ++ [x])) (hys : Run lt p (y :: ys))
    (hfirst : ∀ a ∈ others ++ [x], lt y a = true) (hlast : ∀ b ∈ y :: ys, lt b x = true) :
    Run lt p (interleave lt patience (others ++ [x]) (y :: ys)).1 := by
  rw [interleave_eq]
  obtain ⟨hfollows, hover⟩ := finish_follows lt p
    (start (others ++ [x]) (y :: ys)).size patience (start (others ++ [x]) (y :: ys))
  exact (hfollows.underway horders (underway_start horders hxs hys hfirst hlast)).result_run horders
    (hover (Nat.le_refl _))

theorem merge_perm (lt : α → α → Bool) (patience : Nat) (xs ys : List α) :
    (merge lt patience xs ys).1.Perm (xs ++ ys) := by
  unfold merge
  split
  · simp
  · rename_i y ys
    simp only [List.splitAt_eq]
    generalize gallop (fun x => !lt y x) false xs = count
    have hxs : xs.take count ++ xs.drop count = xs := List.take_append_drop _ _
    split
    · rename_i hnone
      rw [List.getLast?_eq_none_iff.1 hnone, List.append_nil] at hxs
      rw [hxs]
    · rename_i last hlast
      generalize (y :: ys).length - gallop (fun z => !lt z last) true (y :: ys).reverse = keep
      have hys : (y :: ys).take keep ++ (y :: ys).drop keep = y :: ys := List.take_append_drop _ _
      split
      · rename_i hempty
        rw [List.isEmpty_iff.1 hempty, List.nil_append] at hys
        rw [hxs, hys]
      · refine (((interleave_perm lt patience _ _).append_left _).append_right _).trans (.of_eq ?_)
        rw [← List.append_assoc, hxs, List.append_assoc, hys]

/-- Items that pass a test and come last are cut off from the end. -/
theorem Cuts.of_reverse {test : α → Bool} {xs : List α} {count : Nat}
    (hcuts : Cuts test xs.reverse count) :
    (∀ a ∈ xs.take (xs.length - count), test a = false) ∧
      ∀ a ∈ xs.drop (xs.length - count), test a = true := by
  obtain ⟨hpasses, hfails⟩ := hcuts
  rw [List.take_reverse] at hpasses
  rw [List.drop_reverse] at hfails
  exact ⟨fun a ha => hfails a (List.mem_reverse.2 ha),
    fun a ha => hpasses a (List.mem_reverse.2 ha)⟩

/-- Items that do not go before another come last. -/
theorem Run.leads_ge (horders : Orders lt p) {xs : List α} (hrun : Run lt p xs) {x : α} (hx : p x) :
    Leads (fun z => !lt z x) xs.reverse := by
  refine List.pairwise_reverse.2 (hrun.ascends.imp_of_mem fun ha hb hle hpass => ?_)
  rw [Bool.not_eq_true'] at hpass ⊢
  exact horders.trans hx (hrun.all _ ha) (hrun.all _ hb) hpass hle

/-- What does not go behind the first item of a run does not go behind any. -/
theorem Run.le_of_le_head (horders : Orders lt p) {y : α} {ys : List α} (hrun : Run lt p (y :: ys))
    {a b : α} (ha : p a) (hle : lt y a = false) (hb : b ∈ y :: ys) : lt b a = false := by
  rcases List.mem_cons.1 hb with rfl | hrest
  · exact hle
  · exact horders.trans ha (hrun.all y List.mem_cons_self) (hrun.all b hb) hle
      (List.rel_of_pairwise_cons hrun.ascends hrest)

/-- What does not go before the last item of a run does not go before any. -/
theorem Run.le_of_last_le (horders : Orders lt p) {xs : List α} {x : α}
    (hrun : Run lt p (xs ++ [x])) {a b : α} (hb : p b) (hle : lt b x = false)
    (ha : a ∈ xs ++ [x]) : lt b a = false := by
  have hx : p x := hrun.all x (by simp)
  rcases List.mem_append.1 ha with hrest | hlast
  · have hax := (List.pairwise_append.1 hrun.ascends).2.2 a hrest x (by simp)
    exact horders.trans (hrun.all a ha) hx hb hax hle
  · rw [List.mem_singleton.1 hlast]
    exact hle

/-- A run that is cut is two runs, of which the first goes before the second. -/
theorem Run.split {xs : List α} (hrun : Run lt p xs) (count : Nat) :
    Run lt p (xs.take count) ∧ Run lt p (xs.drop count) ∧
      ∀ a ∈ xs.take count, ∀ b ∈ xs.drop count, lt b a = false := by
  refine ⟨hrun.sublist (List.take_sublist count xs), hrun.sublist (List.drop_sublist count xs), ?_⟩
  have hascends := hrun.ascends
  rw [← List.take_append_drop count xs] at hascends
  exact (List.pairwise_append.1 hascends).2.2

/-- A run with the items of two lists goes between what goes before both and what goes behind
both. -/
theorem Run.between {before merged after xs ys : List α} (hbefore : Run lt p before)
    (hmerged : Run lt p merged) (hafter : Run lt p after) (hperm : merged.Perm (xs ++ ys))
    (hxs : ∀ a ∈ before, ∀ b ∈ xs, lt b a = false) (hys : ∀ a ∈ before, ∀ b ∈ ys, lt b a = false)
    (hends : ∀ a ∈ before, ∀ b ∈ after, lt b a = false)
    (hxs' : ∀ a ∈ xs, ∀ b ∈ after, lt b a = false) (hys' : ∀ a ∈ ys, ∀ b ∈ after, lt b a = false) :
    Run lt p (before ++ merged ++ after) := by
  have hmem : ∀ a ∈ merged, a ∈ xs ∨ a ∈ ys := fun a ha => List.mem_append.1 (hperm.subset ha)
  refine (hbefore.append hmerged fun a ha b hb => ?_).append hafter fun a ha b hb => ?_
  · exact (hmem b hb).elim (hxs a ha b) (hys a ha b)
  · rcases List.mem_append.1 ha with ha | ha
    · exact hends a ha b hb
    · exact (hmem a ha).elim (hxs' a · b hb) (hys' a · b hb)

/-- Two runs are merged into a run. -/
theorem merge_run (horders : Orders lt p) (patience : Nat) {xs ys : List α} (hxs : Run lt p xs)
    (hys : Run lt p ys) : Run lt p (merge lt patience xs ys).1 := by
  cases ys with
  | nil => exact hxs
  | cons y ys =>
      -- what the second run does not reach stays in front
      have hcuts := gallop_cuts false (hxs.leads_le horders (hys.all y List.mem_cons_self))
      simp only [merge, List.splitAt_eq]
      generalize gallop (fun x => !lt y x) false xs = count at hcuts ⊢
      obtain ⟨hbefore, hrest, hbetween⟩ := hxs.split count
      have hfront : ∀ a ∈ xs.take count, ∀ b ∈ y :: ys, lt b a = false := fun a ha b hb =>
        hys.le_of_le_head horders (hbefore.all a ha)
          ((Bool.not_eq_true' _).mp (hcuts.passes a ha)) hb
      have hpast : ∀ a ∈ xs.drop count, lt y a = true := fun a ha =>
        (Bool.not_eq_false' _).mp (hcuts.fails a ha)
      generalize xs.take count = before at *
      generalize xs.drop count = reaching at *
      split
      · exact hbefore.append hys hfront
      · rename_i last hlast
        obtain ⟨others, rfl⟩ := List.getLast?_eq_some_iff.1 hlast
        -- what the first run does not reach stays at the end
        obtain ⟨hshort, hbehind⟩ :=
          (gallop_cuts true (hys.leads_ge horders (hrest.all last (by simp)))).of_reverse
        generalize (y :: ys).length - gallop (fun z => !lt z last) true (y :: ys).reverse = keep
          at hshort hbehind ⊢
        obtain ⟨hkept, hafter, hapart⟩ := hys.split keep
        have hback : ∀ a ∈ others ++ [last], ∀ b ∈ (y :: ys).drop keep, lt b a = false :=
          fun a ha b hb => hrest.le_of_last_le horders (hafter.all b hb)
            ((Bool.not_eq_true' _).mp (hbehind b hb)) ha
        have hends : ∀ a ∈ before, ∀ b ∈ (y :: ys).drop keep, lt b a = false :=
          fun a ha b hb => hfront a ha b (List.mem_of_mem_drop hb)
        split
        · refine (hbefore.append hrest hbetween).append hafter fun a ha b hb => ?_
          exact (List.mem_append.1 ha).elim (hends a · b hb) (hback a · b hb)
        · rename_i hsome
          refine hbefore.between ?_ hafter (interleave_perm lt patience _ _) hbetween
            (fun a ha b hb => hfront a ha b (List.mem_of_mem_take hb)) hends hback hapart
          cases keep with
          | zero => exact absurd rfl hsome
          | succ keep =>
              rw [List.take_succ_cons] at hkept hshort ⊢
              exact interleave_run horders patience hrest hkept hpast fun b hb =>
                (Bool.not_eq_false' _).mp (hshort b hb)

end IssueSearch.Ranking
