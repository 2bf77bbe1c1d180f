import Mathlib.Data.Finset.Dedup
import Mathlib.Data.Finset.Insert
import FairLease.Proofs.Etcd.Exchange
import FairLease.Proofs.Etcd.Wire
import FairLease.Proofs.Store.Listing

/-!
# Listings of a cluster

A cluster answers a listing with a tree, from which the page is cut. It is the
page that the in-memory store cuts from the same entries.
-/

namespace FairLease
namespace Etcd
namespace Node

/-!
# Leaves and their paths

A leaf is found by going down through directories, by the numbers of the
children. Every leaf is listed once for each path that leads to it.
-/

/-- What holds of a node when it holds of its children holds of every node. -/
theorem induction_on {motive : Node -> Prop}
    (h : forall n, (forall child, child ∈ n.children -> motive child) ->
      motive n) :
    forall n, motive n
  | mk key value isDirectory children createdIndex modifiedIndex ttlSeconds =>
      h (mk key value isDirectory children createdIndex
        modifiedIndex ttlSeconds)
        fun child hchild =>
          have : sizeOf child < sizeOf children := List.sizeOf_lt_of_mem hchild
          induction_on h child
  termination_by n => sizeOf n
  decreasing_by simp only [mk.sizeOf_spec]; omega

/-- The path leads from the node to the leaf, through directories only. -/
inductive Reaches : Node -> List Nat -> Node -> Prop where
  | leaf {n : Node} : n.isDirectory = false -> Reaches n [] n
  | child {n child leaf : Node} {i : Nat} {path : List Nat} :
      n.isDirectory = true ->
      n.children[i]? = some child -> Reaches child path leaf ->
        Reaches n (i :: path) leaf

theorem leavesOfAll_eq (children : List Node) :
    leavesOfAll children = children.flatMap leaves := by
  induction children with
  | nil => rw [leavesOfAll, List.flatMap_nil]
  | cons n rest ih => rw [leavesOfAll, ih, List.flatMap_cons]

theorem leaves_of_directory {n : Node} (h : n.isDirectory = true) :
    n.leaves = n.children.flatMap leaves := by
  cases n with
  | mk key value isDirectory children createdIndex modifiedIndex ttlSeconds =>
      cases h
      rw [leaves, if_pos rfl, leavesOfAll_eq]
      rfl

theorem leaves_of_leaf {n : Node} (h : n.isDirectory = false) :
    n.leaves = [n.leafEntry] := by
  cases n with
  | mk key value isDirectory children createdIndex modifiedIndex ttlSeconds =>
      cases h
      rw [leaves, if_neg Bool.false_ne_true]
      rfl

theorem mem_leaves_iff {n : Node} {kv : KeyValue} :
    kv ∈ n.leaves <-> exists path leaf, n.Reaches path leaf ∧
      leaf.leafEntry = kv := by
  induction n using induction_on with
  | h n ih =>
      cases hdirectory : n.isDirectory with
      | false =>
          rw [leaves_of_leaf hdirectory, List.mem_singleton]
          constructor
          · intro h
            exact ⟨[], n, .leaf hdirectory, h.symm⟩
          · intro h
            rcases h with ⟨path, leaf, hreaches, rfl⟩
            cases hreaches with
            | leaf => rfl
            | child hd => rw [hdirectory] at hd; cases hd
      | true =>
          rw [leaves_of_directory hdirectory, List.mem_flatMap]
          constructor
          · intro h
            rcases h with ⟨child, hchild, hkv⟩
            rcases (ih child hchild).mp hkv with ⟨path, leaf, hreaches, hleaf⟩
            rcases List.getElem?_of_mem hchild with ⟨i, hi⟩
            exact ⟨i :: path, leaf, .child hdirectory hi hreaches, hleaf⟩
          · intro h
            rcases h with ⟨path, leaf, hreaches, hleaf⟩
            cases hreaches with
            | leaf hd => rw [hdirectory] at hd; cases hd
            | child _ hi hrest =>
                have hchild := List.mem_of_getElem? hi
                exact ⟨_, hchild, (ih _ hchild).mpr ⟨_, leaf, hrest, hleaf⟩⟩

def HasDistinctKeys (n : Node) : Prop :=
  forall path path' leaf leaf', n.Reaches path leaf -> n.Reaches path' leaf' ->
    leaf.key = leaf'.key -> path = path'

theorem HasDistinctKeys.child {n child : Node} {i : Nat} (h : n.HasDistinctKeys)
    (hdirectory : n.isDirectory = true) (hi : n.children[i]? = some child) :
    child.HasDistinctKeys := by
  intro path path' leaf leaf' hreaches hreaches' hkey
  have hpaths :=
    h (i :: path) (i :: path') leaf leaf' (.child hdirectory hi hreaches)
    (.child hdirectory hi hreaches') hkey
  exact (List.cons.inj hpaths).right

theorem HasDistinctKeys.nodup {n : Node} (h : n.HasDistinctKeys) :
    (n.leaves.map KeyValue.key).Nodup := by
  induction n using induction_on with
  | h n ih =>
      cases hdirectory : n.isDirectory with
      | false =>
          rw [leaves_of_leaf hdirectory]
          exact List.nodup_singleton _
      | true =>
          rw [leaves_of_directory hdirectory, List.map_flatMap,
            List.nodup_flatMap]
          constructor
          · intro child hchild
            rcases List.getElem?_of_mem hchild with ⟨i, hi⟩
            exact ih child hchild (h.child hdirectory hi)
          · rw [List.pairwise_iff_getElem]
            intro i j hi hj hij key hmem hmem'
            rcases List.mem_map.mp hmem with ⟨kv, hkv, rfl⟩
            rcases List.mem_map.mp hmem' with ⟨kv', hkv', hkey⟩
            rcases mem_leaves_iff.mp hkv with ⟨path, leaf, hreaches, rfl⟩
            rcases mem_leaves_iff.mp hkv' with ⟨path', leaf', hreaches', rfl⟩
            have hpaths := h (j :: path') (i :: path) leaf' leaf
              (.child hdirectory (List.getElem?_eq_getElem hj) hreaches')
              (.child hdirectory (List.getElem?_eq_getElem hi) hreaches) hkey
            have hji := (List.cons.inj hpaths).left
            omega

theorem hasDistinctKeys_of_nodup {n : Node}
    (h : (n.leaves.map KeyValue.key).Nodup) :
    n.HasDistinctKeys := by
  induction n using induction_on with
  | h n ih =>
      intro path path' leaf leaf' hreaches hreaches' hkey
      cases hreaches with
      | leaf hdirectory =>
          cases hreaches' with
          | leaf => rfl
          | child hd => rw [hdirectory] at hd; cases hd
      | @child _ child _ i path hdirectory hi hrest =>
          cases hreaches' with
          | leaf hd => rw [hdirectory] at hd; cases hd
          | @child _ child' _ j path' _ hj hrest' =>
              rw [leaves_of_directory hdirectory, List.map_flatMap,
                List.nodup_flatMap] at h
              rcases h with ⟨hnodup, hdisjoint⟩
              have hmem := List.mem_map_of_mem (f := KeyValue.key)
                (mem_leaves_iff.mpr ⟨path, leaf, hrest, rfl⟩)
              have hmem' := List.mem_map_of_mem (f := KeyValue.key)
                (mem_leaves_iff.mpr ⟨path', leaf', hrest', rfl⟩)
              rw [show leaf'.leafEntry.key =
                leaf.leafEntry.key from hkey.symm] at hmem'
              rcases List.getElem?_eq_some_iff.mp hi with ⟨hlt, rfl⟩
              rcases List.getElem?_eq_some_iff.mp hj with ⟨hlt', rfl⟩
              rw [List.pairwise_iff_getElem] at hdisjoint
              rcases Nat.lt_trichotomy i j with hij | rfl | hij
              · exact absurd hmem' (hdisjoint i j hlt hlt' hij hmem)
              · have hchild := List.getElem_mem hlt
                rw [ih _ hchild (hnodup _ hchild)
                  path path' leaf leaf' hrest hrest' hkey]
              · exact absurd hmem (hdisjoint j i hlt' hlt hij hmem')

end Node

/-!
# Sorted listings

The entries of a tree are filtered and sorted before a page is cut. As no two
have the same key, their order is that of the table of a store.
-/

theorem keyLe_iff {a b : KeyValue} : keyLe a b = true <-> a.key ≤ b.key := by
  unfold keyLe
  rw [Bool.not_eq_true', decide_eq_false_iff_not, not_lt]

theorem mem_pendingEntries_iff {r : ScanRequest} {entries : List KeyValue}
    {kv : KeyValue} :
    kv ∈ pendingEntries r entries <->
      (kv ∈ entries ∧ Text.startsWith kv.key r.lead = true) ∧
        r.isPending kv.key = true := by
  unfold pendingEntries
  rw [List.mem_filter, (List.mergeSort_perm _ keyLe).mem_iff, List.mem_filter]

theorem pendingEntries_sorted {entries : List KeyValue}
    (h : (entries.map KeyValue.key).Nodup) (r : ScanRequest) :
    (pendingEntries r entries).Pairwise (fun a b => a.key < b.key) := by
  unfold pendingEntries
  apply List.Pairwise.filter
  have htrans : forall a b c : KeyValue, keyLe a b = true -> keyLe b c = true ->
      keyLe a c = true := fun a b c hab hbc =>
    keyLe_iff.mpr (le_trans (keyLe_iff.mp hab) (keyLe_iff.mp hbc))
  have htotal : forall a b : KeyValue, (keyLe a b || keyLe b a) = true := by
    intro a b
    rw [Bool.or_eq_true, keyLe_iff, keyLe_iff]
    exact le_total a.key b.key
  have hsorted := List.pairwise_mergeSort htrans htotal
    (entries.filter fun kv => Text.startsWith kv.key r.lead)
  have hkeys : (entries.filter fun kv => Text.startsWith kv.key r.lead).Pairwise
      (fun a b => a.key ≠ b.key) := (List.pairwise_map.mp h).filter _
  have hdistinct := ((List.mergeSort_perm _ keyLe).pairwise_iff
    (fun {a b} (hab : a.key ≠ b.key) => hab.symm)).mpr hkeys
  refine hsorted.imp₂ ?_ hdistinct
  intro a b hle hne
  exact lt_of_le_of_ne (keyLe_iff.mp hle) hne

end Etcd

/-!
# Pages with the same contents

Two listings of the same keys and values are cut into the same pages, whatever
else is known about the entries.
-/

def KeyValue.binding (kv : KeyValue) : String × String :=
  (kv.key, kv.value)

structure ScanResult.Matches (page page' : ScanResult) : Prop where
  entries : page.entries.map KeyValue.binding =
    page'.entries.map KeyValue.binding
  count : page.count = page'.count
  isTruncated : page.isTruncated = page'.isTruncated
  continuation : page.continuation = page'.continuation

theorem ScanResult.matches_ofListing {listing listing' : List KeyValue}
    (pageSize : Nat)
    (h : listing.map KeyValue.binding = listing'.map KeyValue.binding) :
    (ofListing pageSize listing).Matches (ofListing pageSize listing') := by
  have hlength : listing.length = listing'.length := by
    have := congrArg List.length h
    rwa [List.length_map, List.length_map] at this
  have htake : (listing.take pageSize).map KeyValue.binding =
      (listing'.take pageSize).map KeyValue.binding := by
    rw [List.map_take, h, List.map_take]
  have hkeys : (listing.take pageSize).map KeyValue.key =
      (listing'.take pageSize).map KeyValue.key := by
    have := congrArg (List.map Prod.fst) htake
    rwa [List.map_map, List.map_map] at this
  constructor
  · exact htake
  · show (listing.take pageSize).length = (listing'.take pageSize).length
    rw [List.length_take, List.length_take, hlength]
  · show decide (pageSize < listing.length) =
        decide (pageSize < listing'.length)
    rw [hlength]
  · have hlast : (listing.take pageSize).getLast?.map KeyValue.key =
        (listing'.take pageSize).getLast?.map KeyValue.key := by
      rw [← List.getLast?_map, hkeys, List.getLast?_map]
    simp only [ofListing, hlength, hlast]

/-!
# The same page from a cluster and from a store
-/

def MemoryStore.Holds (s : MemoryStore) (now : Nat)
    (entries : Finset (String × String)) : Prop :=
  forall key value, (key, value) ∈ entries <->
    exists e, s.live? now key = some e ∧ e.value = value

theorem MemoryStore.holds_visible (s : MemoryStore) (now : Nat) :
    s.Holds now (s.visible now "").toFinset := by
  intro key value
  rw [List.mem_toFinset, mem_visible_iff]
  constructor
  · intro h
    exact h.right
  · intro h
    exact ⟨Text.startsWith_iff.mpr ⟨key.toList, rfl⟩, h⟩

namespace Etcd

/-- The leaves that are reached through directories are the entries, and no two
have the same key. -/
structure Node.Holds (tree : Node) (entries : Finset (String × String)) :
    Prop where
  mem_iff : forall key value, (key, value) ∈ entries <->
    exists path leaf, tree.Reaches path leaf ∧ leaf.key = key ∧
      leaf.value.getD "" = value
  distinct : tree.HasDistinctKeys

theorem Node.mem_bindings_iff {tree : Node} {p : String × String} :
    p ∈ tree.leaves.map KeyValue.binding <->
      exists path leaf, tree.Reaches path leaf ∧ leaf.key = p.1 ∧
        leaf.value.getD "" = p.2 := by
  rw [List.mem_map]
  constructor
  · intro hp
    rcases hp with ⟨kv, hkv, rfl⟩
    rcases Node.mem_leaves_iff.mp hkv with ⟨path, leaf, hreaches, rfl⟩
    exact ⟨path, leaf, hreaches, rfl, rfl⟩
  · intro hp
    rcases hp with ⟨path, leaf, hreaches, hkey, hvalue⟩
    exact ⟨leaf.leafEntry, Node.mem_leaves_iff.mpr ⟨path, leaf, hreaches, rfl⟩,
      Prod.ext hkey hvalue⟩

theorem Node.holds_leaves {tree : Node}
    (h : (tree.leaves.map KeyValue.key).Nodup) :
    tree.Holds (tree.leaves.map KeyValue.binding).toFinset := by
  constructor
  · intro key value
    rw [List.mem_toFinset, Node.mem_bindings_iff]
  · exact Node.hasDistinctKeys_of_nodup h

theorem map_pendingEntries_leaves {tree : Node} {s : MemoryStore} {now : Nat}
    {entries : Finset (String × String)} (htree : tree.Holds entries)
    (hstore : s.Holds now entries) (r : ScanRequest) :
    (pendingEntries r tree.leaves).map KeyValue.binding =
      ((s.scan now r).2.listing now r).map KeyValue.binding := by
  have hscan := s.map_listing_scan now r
  rw [show ((s.scan now r).2.listing now r).map KeyValue.binding = _ from hscan]
  apply MemoryStore.eq_of_sorted
  · rw [List.pairwise_map]
    exact pendingEntries_sorted htree.distinct.nodup r
  · exact (s.visible_sorted now r.lead).filter _
  · intro p
    have hentries : p ∈ tree.leaves.map KeyValue.binding <->
        exists e, s.live? now p.1 = some e ∧ e.value = p.2 := by
      rw [Node.mem_bindings_iff, ← htree.mem_iff p.1 p.2]
      exact hstore p.1 p.2
    rw [List.mem_filter, MemoryStore.mem_visible_iff, ← hentries, List.mem_map,
      List.mem_map]
    constructor
    · intro hp
      rcases hp with ⟨kv, hkv, rfl⟩
      rcases mem_pendingEntries_iff.mp hkv with ⟨⟨hmem, hlead⟩, hpending⟩
      exact ⟨⟨hlead, kv, hmem, rfl⟩, hpending⟩
    · intro hp
      rcases hp with ⟨⟨hlead, kv, hmem, rfl⟩, hpending⟩
      exact ⟨kv, mem_pendingEntries_iff.mpr ⟨⟨hmem, hlead⟩, hpending⟩, rfl⟩

def pageOf (r : ScanRequest) (entries : List KeyValue) : ScanResult :=
  .ofListing r.pageSize (pendingEntries r entries)

theorem pageOf_nil {s : MemoryStore} {now : Nat} (hempty : s.Holds now ∅)
    (r : ScanRequest) :
    pageOf r [] = (s.scan now r).1 := by
  have hlisting : (s.scan now r).2.listing now r = [] := by
    rw [List.eq_nil_iff_forall_not_mem]
    intro kv hkv
    rcases MemoryStore.live?_of_mem_listing hkv with ⟨_, _, hlive⟩
    exact absurd ((hempty kv.key kv.value).mpr hlive) (Finset.notMem_empty _)
  have hnone : pendingEntries r [] = [] := by
    simp [pendingEntries]
  show ScanResult.ofListing r.pageSize (pendingEntries r []) =
    ScanResult.ofListing r.pageSize ((s.scan now r).2.listing now r)
  rw [hlisting, hnone]

section

variable {σ : Type} {c : Client} {send : Transport σ} {r : ScanRequest} {st : σ}

theorem scan_of_success {index : Option Nat} {response : Response}
    (h : (contact send (.ofListing r.lead) c.endpoints st).1.Carries ⟨index,
      .success response⟩) :
    (c.scan send r st).1 = .ok (pageOf r response.node.leaves) := by
  have hexchange := c.exchange_eq send (.ofListing r.lead) st
  rw [h.result_eq] at hexchange
  simp only [Client.scan, bind, StateT.bind, hexchange]
  rfl

theorem scan_of_missing {index : Option Nat} {e : ErrorBody}
    (hcode : e.code = ErrorBody.keyNotFound)
    (h : (contact send (.ofListing r.lead) c.endpoints st).1.Carries ⟨index,
      .failure e⟩) :
    (c.scan send r st).1 = .ok (pageOf r []) := by
  have hexchange := c.exchange_eq send (.ofListing r.lead) st
  rw [h.result_eq] at hexchange
  simp only [Client.scan, bind, StateT.bind, hexchange, hcode,
    beq_self_eq_true, if_true]
  rfl

end

/-- Whatever page is asked for, a client cuts from a tree the page that the
in-memory store cuts from the same entries, and finds nothing where the key of
the listing does not exist. -/
theorem scans_agree {tree : Node} {s : MemoryStore} {now : Nat}
    {entries : Finset (String × String)} (htree : tree.Holds entries)
    (hstore : s.Holds now entries) (r : ScanRequest) :
    (pageOf r tree.leaves).Matches (s.scan now r).1 ∧
      forall (σ : Type) (c : Client) (send : Transport σ) (st : σ)
        (index : Option Nat), (forall action prevNode,
          (contact send (.ofListing r.lead) c.endpoints st).1.Carries
              ⟨index, .success ⟨action, tree, prevNode⟩⟩ ->
            (c.scan send r st).1 = .ok (pageOf r tree.leaves)) ∧
        (forall e, e.code = ErrorBody.keyNotFound ->
          (contact send (.ofListing r.lead) c.endpoints st).1.Carries ⟨index,
            .failure e⟩ ->
            forall (bare : MemoryStore) (t : Nat), bare.Holds t ∅ ->
              (c.scan send r st).1 = .ok (bare.scan t r).1) := by
  constructor
  · exact ScanResult.matches_ofListing
      _ (map_pendingEntries_leaves htree hstore r)
  · intro σ c send st index
    constructor
    · intro action prevNode hcarries
      exact scan_of_success hcarries
    · intro e hcode hcarries bare t hbare
      rw [scan_of_missing hcode hcarries, pageOf_nil hbare]

def nested : Node :=
  .mk "/c" (some "-") true
    [.mk "/c/d" none true [.mk "/c/d/b" (some "2") false [] 7 8 (some 5)]
      7 7 none, .mk "/c/a" (some "1") false [] 6 6 none,
      .mk "/c/e" none true [] 9 9 none] 5 5 none

def flat : MemoryStore :=
  let s := (MemoryStore.empty.write 0 (.setWithTtl "/c/a0" "9" 1)).2
  ((s.write 0 (.set "/c/d/b" "2")).2.write 0 (.setWithTtl "/c/a" "1" 60000)).2

def missing : ErrorBody :=
  ⟨ErrorBody.keyNotFound, "Key not found", some "/c", some 9⟩

def answering (status : Nat) (j : Json) : Transport Unit :=
  fun _ => return .response status (some "9") (.whole j.compact)

theorem fits_nested : nested.Fits 3 := by
  have hword : wordSize 64 = 18446744073709551616 := rfl
  have hhalf : wordSize 63 = 9223372036854775808 := rfl
  simp [nested, Node.fits_mk_iff, hword, hhalf]

theorem scans_agree_nested :
    nested.Holds {("/c/a", "1"), ("/c/d/b", "2")} ∧
    flat.Holds 2000000 {("/c/a", "1"), ("/c/d/b", "2")} ∧
    (exists page, (singleClient.scan
      (answering 200 (Response.toJson ⟨"get", nested, none⟩))
        ⟨"/c", some 1, none⟩ ()).1 = .ok page ∧
      page.entries.map KeyValue.binding = [("/c/a", "1")] ∧
      page.continuation = some "/c/a") ∧
    (singleClient.scan (answering 404 missing.toJson) ⟨"/c", some 1,
      none⟩ ()).1 =
      .ok ⟨[], 0, false, none⟩ := by
  have htree : nested.Holds {("/c/a", "1"), ("/c/d/b", "2")} := by
    have h :=
      Node.holds_leaves (show (nested.leaves.map
        KeyValue.key).Nodup by decide +kernel)
    have hentries : (nested.leaves.map KeyValue.binding).toFinset =
        {("/c/a", "1"), ("/c/d/b", "2")} := by decide +kernel
    rwa [hentries] at h
  have hstore : flat.Holds 2000000 {("/c/a", "1"), ("/c/d/b", "2")} := by
    have h := flat.holds_visible 2000000
    have hentries : (flat.visible 2000000 "").toFinset =
        {("/c/a", "1"), ("/c/d/b", "2")} := by decide +kernel
    rwa [hentries] at h
  have hbare : MemoryStore.empty.Holds 0 ∅ := by
    have h := MemoryStore.empty.holds_visible 0
    have hentries : (MemoryStore.empty.visible 0 "").toFinset = ∅ := by
      decide +kernel
    rwa [hentries] at h
  have hindex : readIndex (some "9") = some 9 := by decide +kernel
  have hfits : Response.Fits ⟨"get", nested, none⟩ :=
    ⟨fits_nested.mono (by decide), fun _ h => absurd h (by simp)⟩
  have hcode : ErrorBody.keyNotFound < wordSize 64 := by decide
  have herror : forall i, missing.index = some i -> i < wordSize 64 := by
    intro i hi
    cases hi
    decide
  rcases scans_agree htree hstore ⟨"/c", some 1, none⟩ with ⟨hmatches, hscans⟩
  rcases hscans Unit singleClient (answering 200 _) () (some 9) with ⟨hfound, _⟩
  rcases hscans Unit singleClient (answering 404 missing.toJson) ()
    (some 9) with ⟨_, hnone⟩
  have hpage :=
    hfound "get" none ⟨200, some "9", _, rfl, hindex,
      Reply.decode_response hfits 200⟩
  have hempty := hnone missing rfl
    ⟨404, some "9", _, rfl, hindex, Reply.decode_error hcode herror 404⟩
      MemoryStore.empty 0 hbare
  refine ⟨htree, hstore, ⟨_, hpage, ?_, ?_⟩, ?_⟩
  · rw [hmatches.entries]
    decide +kernel
  · rw [hmatches.continuation]
    decide +kernel
  · rw [hempty]
    decide +kernel

end Etcd
end FairLease
