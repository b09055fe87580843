import Mathlib.Data.List.Basic
import Arm32.CommentFile
import Arm32.Proofs.Listing.Text

/-! The comments in a listing. A comment file that is read gives its comments sorted, and from sorted comments the
listing takes for each word exactly those at its offset. What stands at any other offset is passed over. -/

namespace Arm32

namespace Listing

section Cursor

variable {α : Type} {test : α → Bool} {items : List α}

/-- Where a test fails for good once it fails, the items passed over are those that pass it. -/
theorem dropWhile_eq_filter (settled : items.Pairwise fun earlier later => test later = true → test earlier = true) :
    items.dropWhile test = items.filter fun item => !test item := by
  induction items with
  | nil => rfl
  | cons item rest ih =>
      obtain ⟨first, others⟩ := List.pairwise_cons.mp settled
      cases passes : test item with
      | true => simp [passes, ih others]
      | false =>
          have fails : ∀ later ∈ rest, (!test later) = true := fun later member => by
            have := mt (first later member)
            simpa [passes] using this
          simp [passes, List.filter_eq_self.mpr fails]

theorem takeWhile_eq_filter (settled : items.Pairwise fun earlier later => test later = true → test earlier = true) :
    items.takeWhile test = items.filter test := by
  induction items with
  | nil => rfl
  | cons item rest ih =>
      obtain ⟨first, others⟩ := List.pairwise_cons.mp settled
      cases passes : test item with
      | true => simp [passes, ih others]
      | false =>
          have fails : ∀ later ∈ rest, ¬ test later = true := fun later member => by
            have := mt (first later member)
            simpa [passes] using this
          simp [passes, List.filter_eq_nil_iff.mpr fails]

end Cursor

variable {settings : ListingSettings} {words : List Word} {comments : List Comment} {index : Nat}

/-- In the order of their offsets. -/
def Sorted (comments : List Comment) : Prop :=
  comments.Pairwise fun earlier later => commentOffset earlier ≤ commentOffset later

theorem Sorted.filter (sorted : Sorted comments) (test : Comment → Bool) : Sorted (comments.filter test) :=
  List.Pairwise.filter test sorted

theorem pending_eq_filter (sorted : Sorted comments) (address : Int) :
    pending comments address = comments.filter fun comment => address ≤ commentOffset comment := by
  have settled : comments.Pairwise fun earlier later =>
      decide (commentOffset later < address) = true → decide (commentOffset earlier < address) = true := by
    refine List.Pairwise.imp ?_ sorted
    intro earlier later ordered
    simp only [decide_eq_true_eq]
    omega
  rw [pending, dropWhile_eq_filter settled]
  simp only [← decide_not, Int.not_lt]

/-- A comment at the offset itself comes before any that are further on. -/
theorem settled_at (sorted : Sorted comments) (address : Int) :
    (comments.filter fun comment => address ≤ commentOffset comment).Pairwise fun earlier later =>
      (commentOffset later == address) = true → (commentOffset earlier == address) = true := by
  refine List.Pairwise.imp_of_mem ?_ (sorted.filter _)
  intro earlier later member _ ordered
  have reached := (List.mem_filter.mp member).2
  simp only [decide_eq_true_eq] at reached
  simp only [beq_iff_eq]
  omega

/-- Words leave over the comments past their offsets. -/
theorem pending_remaining (sorted : Sorted comments) :
    pending (remaining comments index) (offsetOf index) =
      comments.filter fun comment => offsetOf index ≤ commentOffset comment := by
  induction index with
  | zero => exact pending_eq_filter sorted _
  | succ index ih =>
      rw [remaining, ih, dropWhile_eq_filter (settled_at sorted _), List.filter_filter,
        pending_eq_filter (sorted.filter _), List.filter_filter]
      refine List.filter_congr fun comment _ => ?_
      rw [Bool.eq_iff_iff]
      simp only [Bool.and_eq_true, decide_eq_true_eq, Bool.not_eq_true', beq_eq_false_iff_ne]
      simp only [offsetOf]
      omega

theorem attached_eq_filter (sorted : Sorted comments) :
    attached comments index = comments.filter fun comment => comment.offset.toNat == 4 * index := by
  rw [attached, pending_remaining sorted, takeWhile_eq_filter (settled_at sorted _), List.filter_filter]
  refine List.filter_congr fun comment _ => ?_
  rw [Bool.eq_iff_iff]
  simp only [Bool.and_eq_true, decide_eq_true_eq, beq_iff_eq]
  simp only [offsetOf, commentOffset]
  omega

/-- Words from an index on print the comments at their offsets, each once. -/
theorem filter_flatMap_blockRows_perm (settings : ListingSettings) (words : List Word) (comments : List Comment)
    (index : Nat) (destinations : List Int) :
    (((words.zipIdx index).flatMap fun (word, place) =>
        blockRows settings destinations (comments.filter fun comment => comment.offset.toNat == 4 * place) place
          word).filter (·.startsWith "  ;")).Perm
      ((comments.filter fun comment => comment.offset.toNat % 4 == 0 && 4 * index ≤ comment.offset.toNat &&
        comment.offset.toNat < 4 * (index + words.length)).map commentRow) := by
  induction words generalizing index with
  | nil =>
      have none : (comments.filter fun comment => comment.offset.toNat % 4 == 0 && 4 * index ≤ comment.offset.toNat &&
          comment.offset.toNat < 4 * (index + 0)) = [] := by
        refine List.filter_eq_nil_iff.mpr fun comment _ => ?_
        simp only [Bool.and_eq_true, decide_eq_true_eq]
        omega
      rw [List.length_nil, none]
      exact .nil
  | cons word rest ih =>
      let within (comment : Comment) : Bool := comment.offset.toNat % 4 == 0 && 4 * index ≤ comment.offset.toNat &&
        comment.offset.toNat < 4 * (index + (word :: rest).length)
      have here : (comments.filter fun comment => comment.offset.toNat == 4 * index) =
          (comments.filter within).filter fun comment => comment.offset.toNat == 4 * index := by
        rw [List.filter_filter]
        refine List.filter_congr fun comment _ => ?_
        rw [Bool.eq_iff_iff]
        simp only [within, List.length_cons, Bool.and_eq_true, beq_iff_eq, decide_eq_true_eq]
        omega
      have later : (comments.filter fun comment => comment.offset.toNat % 4 == 0 &&
            4 * (index + 1) ≤ comment.offset.toNat && comment.offset.toNat < 4 * (index + 1 + rest.length)) =
          (comments.filter within).filter fun comment => !(comment.offset.toNat == 4 * index) := by
        rw [List.filter_filter]
        refine List.filter_congr fun comment _ => ?_
        rw [Bool.eq_iff_iff]
        simp only [within, List.length_cons, Bool.and_eq_true, beq_iff_eq, decide_eq_true_eq, Bool.not_eq_true',
          beq_eq_false_iff_ne]
        omega
      rw [List.zipIdx_cons, List.flatMap_cons, List.filter_append, filter_blockRows]
      refine ((ih (index + 1)).append_left _).trans ?_
      rw [← List.map_append, here, later]
      exact (List.filter_append_perm _ _).map _

end Listing

namespace CommentFile

variable {comments : List Comment}

theorem sorted_sorted : Listing.Sorted (sorted comments) := by
  have ordered : (sorted comments).Pairwise fun a b => decide (a.offset ≤ b.offset) = true := List.pairwise_mergeSort
    (fun a b c => by simpa using fun first second => BitVec.le_trans first second)
    (fun a b => by simpa using BitVec.le_total a.offset b.offset) comments
  refine List.Pairwise.imp (fun {a b} below => ?_) ordered
  simpa [Listing.commentOffset, BitVec.le_def] using below

/-- Sorting leaves the comments at one offset in their order. -/
theorem filter_sorted (offset : Nat) :
    ((sorted comments).filter fun comment => comment.offset.toNat == offset) =
      comments.filter fun comment => comment.offset.toNat == offset := by
  have level : (comments.filter fun comment => comment.offset.toNat == offset).Pairwise
      fun a b => decide (a.offset ≤ b.offset) = true := by
    refine List.pairwise_of_forall_mem_list fun a first b second => ?_
    simp only [List.mem_filter, beq_iff_eq] at first second
    simp [BitVec.le_def, first.2, second.2]
  have kept : (comments.filter fun comment => comment.offset.toNat == offset).Sublist (sorted comments) :=
    List.sublist_mergeSort (fun a b c => by simpa using fun first second => BitVec.le_trans first second)
    (fun a b => by simpa using BitVec.le_total a.offset b.offset) level List.filter_sublist
  have among := kept.filter fun comment : Comment => comment.offset.toNat == offset
  rw [List.filter_filter] at among
  simp only [Bool.and_self] at among
  refine (among.eq_of_length ?_).symm
  exact ((List.mergeSort_perm comments _).filter _).length_eq.symm

end CommentFile

end Arm32
