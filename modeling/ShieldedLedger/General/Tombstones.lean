import Mathlib.Data.Finset.Dedup
import Mathlib.Data.Finset.Insert
import Mathlib.Data.Finset.Lattice.Lemmas
import Mathlib.Data.List.Nodup
import Mathlib.Data.List.Perm.Basic

/-!
# Holdings with tombstones

A view holds items and remembers buried keys.  What it should show after some
updates is a set: the items added under keys never buried.  The set does not
depend on the order or the repetition of the updates.  The view itself appends
additions without looking at the buried keys and drops items only at a burial, so
it shows that set exactly when nothing added since the last burial has a buried
key and no other item is added twice.
-/

namespace Tombstones

variable {α κ : Type}

@[simp] theorem foldl_insert_eq_union [DecidableEq κ] (keys : List κ) (set : Finset κ) :
    keys.foldl (fun set next => insert next set) set = set ∪ keys.toFinset := by
  induction keys generalizing set with
  | nil => simp
  | cons next rest ih =>
      rw [List.foldl_cons, ih]
      ext other
      simp only [Finset.mem_union, Finset.mem_insert, List.toFinset_cons]
      tauto

/-- Items to hold, or keys to bury. -/
inductive Update (α κ : Type) where
  | add (items : List α)
  | bury (keys : List κ)

structure View (α κ : Type) where
  held : List α
  buried : Finset κ

namespace Update

/-- The items an update adds. -/
def items : Update α κ → List α
  | .add items => items
  | .bury _ => []

/-- The keys an update buries. -/
def keys : Update α κ → List κ
  | .add _ => []
  | .bury keys => keys

/-- What has been added since the last burial, after one more update. -/
def waiting (earlier : List α) : Update α κ → List α
  | .add items => earlier ++ items
  | .bury _ => []

end Update

namespace View

/-- What is held from the start or has been added. -/
def arrivals (self : View α κ) (updates : List (Update α κ)) : List α :=
  self.held ++ updates.flatMap Update.items

/-- What has arrived since the last burial. -/
def waiting (self : View α κ) (updates : List (Update α κ)) : List α :=
  updates.foldl Update.waiting self.held

@[simp] theorem waiting_snoc (self : View α κ) (updates : List (Update α κ)) (last : Update α κ) :
    self.waiting (updates ++ [last]) = last.waiting (self.waiting updates) := by
  simp [waiting]

@[simp] theorem arrivals_snoc (self : View α κ) (updates : List (Update α κ)) (last : Update α κ) :
    self.arrivals (updates ++ [last]) = self.arrivals updates ++ last.items := by
  simp [arrivals]

/-- The key of an item is buried from the start or by one of the updates. -/
def Gone (key : α → κ) (self : View α κ) (updates : List (Update α κ)) (item : α) : Prop :=
  key item ∈ self.buried ∨ key item ∈ updates.flatMap Update.keys

@[simp] theorem gone_snoc {key : α → κ} {self : View α κ} {updates : List (Update α κ)}
    {last : Update α κ} {item : α} :
    self.Gone key (updates ++ [last]) item ↔
      self.Gone key updates item ∨ key item ∈ last.keys := by
  simp [Gone, or_assoc]

variable [DecidableEq κ] (key : α → κ)

/-- Additions append; a burial drops every item under a buried key. -/
def update (self : View α κ) : Update α κ → View α κ
  | .add items => { self with held := self.held ++ items }
  | .bury keys =>
      let buried := keys.foldl (fun buried next => insert next buried) self.buried
      ⟨self.held.filter fun item => decide (key item ∉ buried), buried⟩

def replay (self : View α κ) (updates : List (Update α κ)) : View α κ :=
  updates.foldl (update key) self

instance (self : View α κ) (updates : List (Update α κ)) : DecidablePred (self.Gone key updates) :=
  fun _ => inferInstanceAs (Decidable (_ ∨ _))

/-- The view holds exactly the arrivals that are not gone, each once. -/
structure Shows (view : View α κ) (updates : List (Update α κ)) : Prop where
  once : (view.replay key updates).held.Nodup
  shown : ∀ item, item ∈ (view.replay key updates).held ↔
    item ∈ view.arrivals updates ∧ ¬view.Gone key updates item

/-- A burial follows every arrival that is gone, and no other item arrives twice. -/
structure Settled [DecidableEq α] (view : View α κ) (updates : List (Update α κ)) : Prop where
  buried : ∀ item ∈ view.waiting updates, ¬view.Gone key updates item
  once : ∀ item, ¬view.Gone key updates item → (view.arrivals updates).count item ≤ 1

variable {key} {self : View α κ} {updates : List (Update α κ)}

@[simp] theorem replay_snoc (last : Update α κ) :
    self.replay key (updates ++ [last]) = (self.replay key updates).update key last := by
  simp [replay]

theorem mem_buried_update {update : Update α κ} {wanted : κ} :
    wanted ∈ (self.update key update).buried ↔ wanted ∈ self.buried ∨ wanted ∈ update.keys := by
  cases update with
  | add items => simp [View.update, Update.keys]
  | bury keys => simp [View.update, Update.keys]

/-- The buried keys are those an item is gone under. -/
theorem mem_buried_replay {item : α} :
    key item ∈ (self.replay key updates).buried ↔ self.Gone key updates item := by
  induction updates using List.reverseRecOn with
  | nil => simp [replay, Gone]
  | append_singleton updates last ih => rw [replay_snoc, mem_buried_update, ih, gone_snoc]

/-- A burial leaves no item under a buried key. -/
theorem mem_held_bury {keys : List κ} {item : α} :
    item ∈ (self.update key (.bury keys)).held ↔
      item ∈ self.held ∧ key item ∉ (self.update key (.bury keys)).buried := by
  simp [update]

/-- The gone items still held are those no burial has followed. -/
theorem mem_held_of_gone {item : α} (gone : self.Gone key updates item) :
    item ∈ (self.replay key updates).held ↔ item ∈ self.waiting updates := by
  induction updates using List.reverseRecOn with
  | nil => rfl
  | append_singleton updates last ih =>
      have buried := mem_buried_replay.mpr gone
      rw [replay_snoc] at buried ⊢
      rw [waiting_snoc]
      cases last with
      | add items =>
          have goneBefore : self.Gone key updates item := by
            simpa [Update.keys] using gone
          simp [update, Update.waiting, ih goneBefore]
      | bury keys =>
          rw [mem_held_bury, Update.waiting]
          simp [buried]

/-- Away from the gone items, the view holds the arrivals. -/
theorem filter_held_replay {kept : α → Bool}
    (covers : ∀ item, self.Gone key updates item → kept item = false) :
    (self.replay key updates).held.filter kept = (self.arrivals updates).filter kept := by
  induction updates using List.reverseRecOn with
  | nil => simp [replay, arrivals]
  | append_singleton updates last ih =>
      have before := ih fun item gone => covers item (gone_snoc.mpr (.inl gone))
      rw [replay_snoc, arrivals_snoc]
      cases last with
      | add items => simp only [update, Update.items, List.filter_append, before]
      | bury keys =>
          have drops (item : α) : (kept item && decide (key item ∉
              ((self.replay key updates).update key (.bury keys)).buried)) = kept item := by
            simp only [← replay_snoc, mem_buried_replay]
            cases keeps : kept item with
            | false => rfl
            | true =>
                have alive : ¬self.Gone key (updates ++ [.bury keys]) item := by
                  intro gone
                  simp [covers item gone] at keeps
                simp [alive]
          rw [Update.items, List.append_nil, ← before]
          simp only [update, List.filter_filter]
          exact List.filter_congr fun item _ => drops item

theorem buried_replay :
    (self.replay key updates).buried = self.buried ∪ (updates.flatMap Update.keys).toFinset := by
  induction updates using List.reverseRecOn with
  | nil => simp [replay]
  | append_singleton updates last ih =>
      ext wanted
      rw [replay_snoc, mem_buried_update, ih]
      simp [or_assoc]

/-- Updates that end with a burial amount to all arrivals at once and then one burial. -/
theorem replay_bury (keys : List κ) :
    self.replay key (updates ++ [.bury keys]) =
      (View.mk (self.arrivals updates) self.buried).update key
        (.bury (updates.flatMap Update.keys ++ keys)) := by
  have buried : (self.replay key (updates ++ [.bury keys])).buried =
      self.buried ∪ (updates.flatMap Update.keys ++ keys).toFinset := by
    rw [buried_replay]
    simp [Update.keys]
  have held : (self.replay key (updates ++ [.bury keys])).held =
      (self.arrivals updates).filter fun item =>
        decide (key item ∉ (self.replay key (updates ++ [.bury keys])).buried) := by
    have covers (item : α) (gone : self.Gone key (updates ++ [.bury keys]) item) :
        decide (key item ∉ (self.replay key (updates ++ [.bury keys])).buried) = false := by
      simpa using mem_buried_replay.mpr gone
    have agree := filter_held_replay covers
    rw [arrivals_snoc, Update.items, List.append_nil] at agree
    rw [← agree, List.filter_eq_self.mpr]
    intro item member
    rw [replay_snoc] at member ⊢
    exact decide_eq_true (mem_held_bury.mp member).2
  rw [update, foldl_insert_eq_union]
  rw [← buried, ← held]

theorem nodup_filter_iff [DecidableEq α] {items : List α} {kept : α → Bool} :
    (items.filter kept).Nodup ↔ ∀ item, kept item = true → items.count item ≤ 1 := by
  rw [List.nodup_iff_count_le_one]
  apply forall_congr'
  intro item
  cases keeps : kept item with
  | true => simp [List.count_filter keeps]
  | false =>
      have absent : item ∉ items.filter kept := by simp [keeps]
      simp [List.count_eq_zero_of_not_mem absent]

/-- The view shows the right set exactly when the updates are settled. -/
theorem shows_iff [DecidableEq α] : self.Shows key updates ↔ self.Settled key updates := by
  have kept : ((self.replay key updates).held.filter fun item =>
      decide (¬self.Gone key updates item)) =
        (self.arrivals updates).filter fun item => decide (¬self.Gone key updates item) := by
    apply filter_held_replay
    intro item gone
    simp [gone]
  constructor
  · intro shows
    constructor
    · intro item waits gone
      exact ((shows.shown item).mp ((mem_held_of_gone gone).mpr waits)).2 gone
    · have once := shows.once.filter fun item => decide (¬self.Gone key updates item)
      rw [kept, nodup_filter_iff] at once
      exact fun item alive => once item (by simpa using alive)
  · intro settled
    have alive (item : α) (held : item ∈ (self.replay key updates).held) :
        ¬self.Gone key updates item := by
      intro gone
      exact settled.buried item ((mem_held_of_gone gone).mp held) gone
    have whole : (self.replay key updates).held =
        (self.arrivals updates).filter fun item => decide (¬self.Gone key updates item) := by
      rw [← kept, List.filter_eq_self.mpr]
      intro item held
      simpa using alive item held
    constructor
    · rw [whole, nodup_filter_iff]
      exact fun item alive => settled.once item (by simpa using alive)
    · intro item
      simp [whole]

/-- Views that show the right set after the same updates, in any order and any number of
times, hold the same items. -/
theorem held_perm_of_shows {left right : List (Update α κ)}
    (same : ∀ update, update ∈ left ↔ update ∈ right)
    (showsLeft : self.Shows key left) (showsRight : self.Shows key right) :
    (self.replay key left).held.Perm (self.replay key right).held := by
  rw [List.perm_ext_iff_of_nodup showsLeft.once showsRight.once]
  intro item
  have arrive : item ∈ self.arrivals left ↔ item ∈ self.arrivals right := by
    simp [arrivals, same]
  have gone : self.Gone key left item ↔ self.Gone key right item := by
    simp [Gone, same]
  rw [showsLeft.shown, showsRight.shown, arrive, gone]

end View

end Tombstones
