import IssueSearch.Ranking.Merge
import Mathlib.Data.List.Perm.Basic
/-!
Runs are found and made longer. Halving and striding tell how many items at the front of a list pass
a test, provided that those that pass come first; so an item that is put into a run finds its place.
-/
namespace IssueSearch.Ranking

variable {α : Type}

/-! ### Where a test begins to fail -/

/-- Halving finds the position, if what holds at a position holds at all before it. -/
theorem halve_spec (holds : Nat → Bool) (early : Bool) (fuel low high : Nat)
    (hfuel : high - low ≤ fuel) (hle : low ≤ high)
    (hdown : ∀ i j, low ≤ i → i ≤ j → j < high → holds j = true → holds i = true) :
    low ≤ halve holds early fuel low high ∧ halve holds early fuel low high ≤ high ∧
      (∀ i, low ≤ i → i < halve holds early fuel low high → holds i = true) ∧
      ∀ i, halve holds early fuel low high ≤ i → i < high → holds i = false := by
  induction fuel generalizing low high with
  | zero =>
      rw [halve]
      exact ⟨Nat.le_refl _, hle, by omega, by omega⟩
  | succ fuel ih =>
      rw [halve]
      by_cases hlt : low < high
      · rw [if_pos hlt]
        have hmiddle : low ≤ low + (high - low - if early then 1 else 0) / 2 ∧
            low + (high - low - if early then 1 else 0) / 2 < high := by
          split <;> omega
        dsimp only
        generalize low + (high - low - if early then 1 else 0) / 2 = middle at hmiddle ⊢
        cases hholds : holds middle with
        | true =>
            rw [if_pos rfl]
            obtain ⟨hlow, hhigh, hbefore, hbehind⟩ := ih (middle + 1) high (by omega)
              (by omega) fun i j hi hij hj => hdown i j (by omega) hij hj
            refine ⟨by omega, hhigh, fun i hi hlt' => ?_, hbehind⟩
            by_cases hpast : middle < i
            · exact hbefore i hpast hlt'
            · exact hdown i middle hi (by omega) hmiddle.2 hholds
        | false =>
            rw [if_neg Bool.false_ne_true]
            obtain ⟨hlow, hhigh, hbefore, hbehind⟩ := ih low middle (by omega)
              (by omega) fun i j hi hij hj => hdown i j hi hij (by omega)
            refine ⟨hlow, by omega, hbefore, fun i hi hlt' => ?_⟩
            by_cases hpast : i < middle
            · exact hbehind i hi hpast
            · rw [Bool.eq_false_iff]
              intro htrue
              rw [hdown middle i hmiddle.1 (by omega) hlt' htrue] at hholds
              cases hholds
      · rw [if_neg hlt]
        exact ⟨Nat.le_refl _, hle, by omega, by omega⟩

/-- Striding stops between a position that holds and one that fails. -/
theorem stride_spec {holds : Nat → Bool} {length last next : Nat} (fuel : Nat)
    (hend : ∀ i, length ≤ i → holds i = false) (hfuel : length ≤ next + fuel)
    (hlast : holds last = true) (hlt : last < next) :
    holds (stride holds fuel last next).1 = true ∧
      (stride holds fuel last next).1 < (stride holds fuel last next).2 ∧
      holds (stride holds fuel last next).2 = false := by
  induction fuel generalizing last next with
  | zero => exact ⟨hlast, hlt, hend next hfuel⟩
  | succ fuel ih =>
      rw [stride]
      cases hnext : holds next with
      | true => exact ih (by omega) hnext (by omega)
      | false => exact ⟨hlast, hlt, hnext⟩

theorem holdsAt_eq_true {test : α → Bool} {xs : List α} {i : Nat} :
    holdsAt test xs i = true ↔ ∃ h : i < xs.length, test xs[i] = true := by
  by_cases hlt : i < xs.length
  · simp [holdsAt, hlt]
  · simp [holdsAt, hlt]

theorem holdsAt_of_length_le {test : α → Bool} {xs : List α} {i : Nat} (hle : xs.length ≤ i) :
    holdsAt test xs i = false := by
  rw [holdsAt, List.getElem?_eq_none hle]
  rfl

/-- The items that pass a test come first. -/
def Leads (test : α → Bool) (xs : List α) : Prop :=
  xs.Pairwise fun a b => test b = true → test a = true

theorem Leads.holdsAt {test : α → Bool} {xs : List α} (hleads : Leads test xs) {i j : Nat}
    (hle : i ≤ j) (hholds : holdsAt test xs j = true) : holdsAt test xs i = true := by
  obtain ⟨hj, htest⟩ := holdsAt_eq_true.1 hholds
  rcases Nat.lt_or_eq_of_le hle with hlt | rfl
  · exact holdsAt_eq_true.2 ⟨by omega, List.pairwise_iff_getElem.1 hleads i j _ hj hlt htest⟩
  · exact hholds

/-- A number of items at the front passes a test, and nothing behind them does. -/
structure Cuts (test : α → Bool) (xs : List α) (count : Nat) : Prop where
  passes : ∀ a ∈ xs.take count, test a = true
  fails : ∀ a ∈ xs.drop count, test a = false

theorem Cuts.of_holdsAt {test : α → Bool} {xs : List α} {count : Nat}
    (hbefore : ∀ i, i < count → i < xs.length → holdsAt test xs i = true)
    (hbehind : ∀ i, count ≤ i → i < xs.length → holdsAt test xs i = false) :
    Cuts test xs count := by
  constructor
  · intro a ha
    obtain ⟨i, hi, rfl⟩ := List.getElem_of_mem ha
    rw [List.length_take, Nat.lt_min] at hi
    rw [List.getElem_take]
    obtain ⟨_, htest⟩ := holdsAt_eq_true.1 (hbefore i hi.1 hi.2)
    exact htest
  · intro a ha
    obtain ⟨i, hi, rfl⟩ := List.getElem_of_mem ha
    rw [List.length_drop] at hi
    rw [List.getElem_drop, Bool.eq_false_iff]
    intro htest
    have hlt : count + i < xs.length := by omega
    have hholds := holdsAt_eq_true.2 ⟨hlt, htest⟩
    rw [hbehind (count + i) (by omega) hlt] at hholds
    cases hholds

/-- Striding and halving count the items that pass. -/
theorem gallop_cuts {test : α → Bool} (early : Bool) {xs : List α} (hleads : Leads test xs) :
    Cuts test xs (gallop test early xs) := by
  rw [gallop]
  cases hfirst : holdsAt test xs 0 with
  | true =>
      obtain ⟨hlast, hlt, hnext⟩ := stride_spec xs.length
        (fun i => holdsAt_of_length_le) (Nat.le_add_left _ 1) hfirst Nat.zero_lt_one
      rw [if_pos rfl]
      generalize stride (holdsAt test xs) xs.length 0 1 = bounds at *
      obtain ⟨last, next⟩ := bounds
      obtain ⟨hinside, -⟩ := holdsAt_eq_true.1 hlast
      obtain ⟨-, -, hbefore, hbehind⟩ := halve_spec (holdsAt test xs) early xs.length (last + 1)
        (min next xs.length) (by omega) (by omega)
        fun i j _ hij _ hholds => hleads.holdsAt hij hholds
      refine .of_holdsAt (fun i hi _ => ?_) fun i hi hi' => ?_
      · by_cases hpast : last < i
        · exact hbefore i hpast hi
        · exact hleads.holdsAt (by omega) hlast
      · by_cases hwithin : i < next
        · exact hbehind i hi (by omega)
        · rw [Bool.eq_false_iff]
          intro hholds
          have hnext' := hleads.holdsAt (Nat.le_of_not_lt hwithin) hholds
          exact absurd (hnext.symm.trans hnext') Bool.false_ne_true
  | false =>
      rw [if_neg Bool.false_ne_true]
      refine .of_holdsAt (by omega) fun i _ _ => ?_
      rw [Bool.eq_false_iff]
      intro hholds
      rw [hleads.holdsAt (Nat.zero_le i) hholds] at hfirst
      cases hfirst

/-! ### Order -/

/-- A comparison is a strict weak order of some items: of two, one does not go before the other, and
what does not go before is transitive. -/
structure Orders (lt : α → α → Bool) (p : α → Prop) : Prop where
  asymm : ∀ {a b}, p a → p b → lt a b = true → lt b a = false
  trans : ∀ {a b c}, p a → p b → p c → lt b a = false → lt c b = false → lt c a = false

/-- Items in ascending order. -/
structure Run (lt : α → α → Bool) (p : α → Prop) (xs : List α) : Prop where
  all : ∀ a ∈ xs, p a
  ascends : xs.Pairwise fun a b => lt b a = false

variable {lt : α → α → Bool} {p : α → Prop}

theorem Run.sublist {xs ys : List α} (hrun : Run lt p xs) (hsublist : ys.Sublist xs) :
    Run lt p ys :=
  ⟨fun a ha => hrun.all a (hsublist.subset ha), hrun.ascends.sublist hsublist⟩

theorem Run.append {xs ys : List α} (hxs : Run lt p xs) (hys : Run lt p ys)
    (hbetween : ∀ a ∈ xs, ∀ b ∈ ys, lt b a = false) : Run lt p (xs ++ ys) := by
  refine ⟨fun a ha => ?_, List.pairwise_append.2 ⟨hxs.ascends, hys.ascends, hbetween⟩⟩
  rcases List.mem_append.1 ha with ha | ha
  · exact hxs.all a ha
  · exact hys.all a ha

/-- Items that do not go behind another come first. -/
theorem Run.leads_le (horders : Orders lt p) {xs : List α} (hrun : Run lt p xs) {x : α} (hx : p x) :
    Leads (fun y => !lt x y) xs := by
  refine hrun.ascends.imp_of_mem fun ha hb hle hpass => ?_
  rw [Bool.not_eq_true'] at hpass ⊢
  exact horders.trans (hrun.all _ ha) (hrun.all _ hb) hx hle hpass

/-- An item put into a run is in its place. -/
theorem Run.insert (horders : Orders lt p) {run : List α} (hrun : Run lt p run) {x : α}
    (hx : p x) : Run lt p (insert lt run x) := by
  have hleads := hrun.leads_le horders hx
  obtain ⟨-, -, hbefore, hbehind⟩ := halve_spec (holdsAt (fun y => !lt x y) run) false run.length 0
    run.length (Nat.le_refl _) (Nat.zero_le _) fun i j _ hij _ hholds => hleads.holdsAt hij hholds
  have hcuts := Cuts.of_holdsAt (fun i hi _ => hbefore i (Nat.zero_le i) hi) hbehind
  rw [Ranking.insert]
  generalize halve (holdsAt (fun y => !lt x y) run) false run.length 0 run.length = place at hcuts ⊢
  have hfirst : ∀ a ∈ run.take place, lt x a = false :=
    fun a ha => (Bool.not_eq_true' _).mp (hcuts.passes a ha)
  have hrest : ∀ a ∈ run.drop place, lt a x = false := fun a ha =>
    horders.asymm hx (hrun.all a (List.mem_of_mem_drop ha))
      ((Bool.not_eq_false' _).mp (hcuts.fails a ha))
  refine (hrun.sublist (List.take_sublist _ _)).append ⟨?_, ?_⟩ ?_
  · intro a ha
    rcases List.mem_cons.1 ha with rfl | ha
    · exact hx
    · exact hrun.all a (List.mem_of_mem_drop ha)
  · exact List.pairwise_cons.2 ⟨hrest, hrun.ascends.sublist (List.drop_sublist _ _)⟩
  · intro a ha b hb
    rcases List.mem_cons.1 hb with rfl | hb
    · exact hfirst a ha
    · exact horders.trans (hrun.all a (List.mem_of_mem_take ha)) hx
        (hrun.all b (List.mem_of_mem_drop hb)) (hfirst a ha) (hrest b hb)

theorem insert_perm (lt : α → α → Bool) (run : List α) (x : α) :
    (insert lt run x).Perm (x :: run) := by
  rw [Ranking.insert]
  refine List.perm_middle.trans (.of_eq ?_)
  rw [List.take_append_drop]

/-! ### The next run -/

/-- Items that go down stand in descending order. -/
theorem descent_descends (horders : Orders lt p) (last : α) (xs : List α)
    (hall : ∀ a ∈ last :: xs, p a) :
    (last :: xs.take (descent lt last xs)).Pairwise fun a b => lt a b = false := by
  induction xs generalizing last with
  | nil => exact List.pairwise_singleton _ _
  | cons y rest ih =>
      rw [descent]
      split
      · rename_i hdown
        have htail := ih y fun a ha => hall a (List.mem_cons_of_mem _ ha)
        rw [List.take_succ_cons]
        refine List.pairwise_cons.2 ⟨fun b hb => ?_, htail⟩
        have hlast : p last := hall last List.mem_cons_self
        have hy : p y := hall y (by simp)
        have hfalls : lt last y = false := horders.asymm hy hlast hdown
        rcases List.mem_cons.1 hb with rfl | hb
        · exact hfalls
        · have hbound := List.rel_of_pairwise_cons htail hb
          have hb' : p b := hall b (by simp [List.mem_of_mem_take hb])
          exact horders.trans hb' hy hlast hbound hfalls
      · rw [List.take_zero]
        exact List.pairwise_singleton _ _

/-- Items that do not go down stand in ascending order. -/
theorem ascent_ascends (horders : Orders lt p) (last : α) (xs : List α)
    (hall : ∀ a ∈ last :: xs, p a) :
    (last :: xs.take (ascent lt last xs)).Pairwise fun a b => lt b a = false := by
  induction xs generalizing last with
  | nil => exact List.pairwise_singleton _ _
  | cons y rest ih =>
      rw [ascent]
      split
      · rw [List.take_zero]
        exact List.pairwise_singleton _ _
      · rename_i hrises
        rw [Bool.not_eq_true] at hrises
        have htail := ih y fun a ha => hall a (List.mem_cons_of_mem _ ha)
        rw [List.take_succ_cons]
        refine List.pairwise_cons.2 ⟨fun b hb => ?_, htail⟩
        rcases List.mem_cons.1 hb with rfl | hb
        · exact hrises
        · have hbound := List.rel_of_pairwise_cons htail hb
          have hb' : p b := hall b (by simp [List.mem_of_mem_take hb])
          exact horders.trans (hall last List.mem_cons_self) (hall y (by simp)) hb' hrises hbound

theorem front_perm (lt : α → α → Bool) (xs : List α) :
    ((front lt xs).1 ++ (front lt xs).2).Perm xs := by
  match xs with
  | [] => exact .refl _
  | [x] => exact .refl _
  | x :: y :: rest =>
      rw [front]
      split
      · have hall : (x :: y :: rest.take (descent lt y rest)) ++ rest.drop (descent lt y rest) =
            x :: y :: rest := by simp
        simp only [List.splitAt_eq]
        exact ((List.reverse_perm _).append_right _).trans (.of_eq hall)
      · simp

theorem front_run (horders : Orders lt p) {xs : List α} (hall : ∀ a ∈ xs, p a) :
    Run lt p (front lt xs).1 := by
  refine ⟨fun a ha => hall a ((front_perm lt xs).subset (List.mem_append_left _ ha)), ?_⟩
  match xs with
  | [] => exact .nil
  | [x] => exact List.pairwise_singleton _ _
  | x :: y :: rest =>
      rw [front]
      have htail : ∀ a ∈ y :: rest, p a := fun a ha => hall a (List.mem_cons_of_mem _ ha)
      split
      · rename_i hdown
        have hfalls := descent_descends horders x (y :: rest) hall
        rw [descent, if_pos hdown, List.take_succ_cons] at hfalls
        simp only [List.splitAt_eq]
        exact List.pairwise_reverse.2 hfalls
      · rename_i hup
        have hrises := ascent_ascends horders x (y :: rest) hall
        rw [ascent, if_neg hup, List.take_succ_cons] at hrises
        simp only [List.splitAt_eq]
        exact hrises

theorem foldl_insert_perm (lt : α → α → Bool) (run more : List α) :
    (more.foldl (insert lt) run).Perm (run ++ more) := by
  induction more generalizing run with
  | nil => simp
  | cons x more ih =>
      rw [List.foldl_cons]
      refine (ih _).trans (((insert_perm lt run x).append_right more).trans ?_)
      exact List.perm_middle.symm

theorem Run.foldl_insert (horders : Orders lt p) {run more : List α} (hrun : Run lt p run)
    (hall : ∀ a ∈ more, p a) : Run lt p (more.foldl (Ranking.insert lt) run) := by
  induction more generalizing run with
  | nil => exact hrun
  | cons x more ih =>
      exact ih (hrun.insert horders (hall x List.mem_cons_self)) fun a ha =>
        hall a (List.mem_cons_of_mem _ ha)

/-- The next run and what stands behind it are the items that are left. -/
theorem nextRun_perm (lt : α → α → Bool) (least : Nat) (xs : List α) :
    ((nextRun lt least xs).1 ++ (nextRun lt least xs).2).Perm xs := by
  refine .trans ?_ (front_perm lt xs)
  simp only [nextRun, List.splitAt_eq]
  generalize (front lt xs).1 = run, (front lt xs).2 = rest
  refine ((foldl_insert_perm lt run _).append_right _).trans (.of_eq ?_)
  rw [List.append_assoc, List.take_append_drop]

theorem nextRun_run (horders : Orders lt p) (least : Nat) {xs : List α} (hall : ∀ a ∈ xs, p a) :
    Run lt p (nextRun lt least xs).1 := by
  have hrest : ∀ a ∈ (front lt xs).2, p a := fun a ha =>
    hall a ((front_perm lt xs).subset (List.mem_append_right _ ha))
  simp only [nextRun, List.splitAt_eq]
  exact (front_run horders hall).foldl_insert horders fun a ha => hrest a (List.mem_of_mem_take ha)

/-- The next run has an item at least. -/
theorem nextRun_shrinks (lt : α → α → Bool) (least : Nat) (x : α) (xs : List α) :
    (nextRun lt least (x :: xs)).2.length ≤ xs.length := by
  have hfront : (front lt (x :: xs)).2.length ≤ xs.length := by
    cases xs with
    | nil => exact Nat.le_refl _
    | cons y rest =>
        rw [front]
        split <;> simp [List.splitAt_eq] <;> omega
  simp only [nextRun, List.splitAt_eq, List.length_drop]
  omega

end IssueSearch.Ranking
