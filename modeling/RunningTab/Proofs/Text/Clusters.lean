import RunningTab.Text.Cluster

/-!
# Clusters and characters

The clusters of a text make it up (`RunningTab.Text.flatten_clusters`). Where a boundary is depends
on the classes of the characters on its two sides and of those before. Between two characters of no
class in particular there always is one, so a text without any others has a cluster for each of its
characters (`RunningTab.Text.clusters_of_other`). Printable ASCII is like that
(`RunningTab.Text.clusters_of_printable`).
-/

namespace RunningTab.Text

variable {t : Text}

theorem clustersAfter_append (s : ClusterState) (t : Text) :
    (clustersAfter s t).1 ++ (clustersAfter s t).2.flatten = t := by
  induction t generalizing s with
  | nil => rfl
  | cons c t ih =>
    rw [clustersAfter]
    split
    · rw [List.cons_append, ih]
    · rw [List.nil_append, List.flatten_cons, List.cons_append, ih]

/-- **The clusters of a text make it up.** -/
theorem flatten_clusters (t : Text) : (clusters t).flatten = t := by
  cases t with
  | nil => rfl
  | cons c t => rw [clusters, List.flatten_cons, List.cons_append, clustersAfter_append]

/-! ### Characters of no class in particular -/

/-- Between them there is always a boundary. -/
theorem clustersAfter_of_other (h : ∀ c ∈ t, clusterClass c = .other) :
    clustersAfter (.start .other) t = ([], t.map ([·])) := by
  induction t with
  | nil => rfl
  | cons c t ih =>
    have hnext : (ClusterState.start .other).next .other = .start .other := rfl
    have hapart : (ClusterState.start .other).continues .other = false := rfl
    rw [clustersAfter, h c List.mem_cons_self, hnext, hapart,
      ih fun d hd => h d (List.mem_cons_of_mem c hd)]
    rfl

/-- **Each is a cluster.** -/
theorem clusters_of_other (h : ∀ c ∈ t, clusterClass c = .other) :
    clusters t = t.map ([·]) := by
  cases t with
  | nil => rfl
  | cons c t =>
    rw [clusters, h c List.mem_cons_self,
      clustersAfter_of_other fun d hd => h d (List.mem_cons_of_mem c hd)]
    rfl

/-! ### Printable characters -/

/-- **A printable text**: its characters are the ASCII ones that are not control characters. -/
def Printable (t : Text) : Prop :=
  ∀ c ∈ t, 0x20 ≤ c.toNat ∧ c.toNat < 0x7f

instance (t : Text) : Decidable (Printable t) :=
  List.decidableBAll _ t

theorem Printable.append {u : Text} (ht : Printable t) (hu : Printable u) : Printable (t ++ u) :=
  fun c hc => (List.mem_append.1 hc).elim (ht c) (hu c)

theorem Printable.intercalate {sep : Text} {ts : List Text} (hsep : Printable sep)
    (hts : ∀ t ∈ ts, Printable t) : Printable (List.intercalate sep ts) := by
  induction ts with
  | nil => exact nofun
  | cons t ts ih =>
    have ht := hts t List.mem_cons_self
    cases ts with
    | nil => rwa [List.intercalate_singleton]
    | cons u us =>
      rw [List.intercalate_cons_cons]
      exact (ht.append hsep).append (ih fun t' ht' => hts t' (List.mem_cons_of_mem t ht'))

theorem clusterClass_of_printable {c : Char} (hlow : 0x20 ≤ c.toNat) (hhigh : c.toNat < 0x7f) :
    clusterClass c = .other := by
  rw [clusterClass]
  simp only [if_neg (by omega : ¬ c.toNat = 0xd), if_neg (by omega : ¬ c.toNat = 0xa),
    if_pos (And.intro hlow hhigh)]

/-- **The clusters of a printable text** are its characters. -/
theorem clusters_of_printable (h : Printable t) : clusters t = t.map ([·]) :=
  clusters_of_other fun c hc => clusterClass_of_printable (h c hc).1 (h c hc).2

end RunningTab.Text
