import FairLease.Claim.Admission

/-!
# Steps of an admission

An admission never forgets who asks for what. Each answer of the store leads to
one of a few phases, and a claim is granted only after it was found to be owned
already or has been created.
-/

namespace FairLease
namespace Admission

/-!
# What an admission keeps
-/

@[simp] theorem uid_listed (s : ClaimSettings)
    (page : Except StoreError ScanResult) (a : Admission) :
    (a.listed s page).uid = a.uid := by
  unfold listed
  split
  · split <;> rfl
  · rfl

@[simp] theorem cidr_listed (s : ClaimSettings)
    (page : Except StoreError ScanResult) (a : Admission) :
    (a.listed s page).cidr = a.cidr := by
  unfold listed
  split
  · split <;> rfl
  · rfl

@[simp] theorem uid_created (result : Except StoreError WriteResult)
    (a : Admission) :
    (a.created result).uid = a.uid := by
  unfold created
  split <;> rfl

@[simp] theorem cidr_created (result : Except StoreError WriteResult)
    (a : Admission) :
    (a.created result).cidr = a.cidr := by
  unfold created
  split <;> rfl

@[simp] theorem uid_registered (a : Admission) : a.registered.uid = a.uid := by
  unfold registered
  split <;> rfl

@[simp] theorem cidr_registered (a : Admission) :
    a.registered.cidr = a.cidr := by
  unfold registered
  split <;> rfl

/-!
# Where an admission goes on
-/

theorem start_cases (isShutDown : Bool) (uid cidr : String) :
    (exists e, start isShutDown uid cidr = ⟨uid, cidr, .finished (.error e)⟩) ∨
      (isShutDown = false ∧
        start isShutDown uid cidr = ⟨uid, cidr,
          .listing (.reading .empty none)⟩) := by
  unfold start
  split
  · rename_i e _
    exact Or.inl ⟨e, rfl⟩
  · rename_i hentry
    refine Or.inr ⟨?_, rfl⟩
    cases isShutDown with
    | false => rfl
    | true =>
        unfold entryError? at hentry
        split at hentry
        · cases hentry
        · split at hentry
          · cases hentry
          · simp at hentry

theorem decide_cases (a : Admission) (found : Snapshot) :
    (found.ownerOf? a.cidr = some a.uid ∧ a.decide found = .registering) ∨
      (found.ownerOf? a.cidr = none ∧
        (forall least, found.minOther? a.uid = some least ->
          found.count a.uid ≤ least) ∧
        a.decide found = .creating) ∨
      a.decide found = .finished (.ok false) := by
  unfold decide Snapshot.evaluate
  cases howner : found.ownerOf? a.cidr with
  | some owner =>
      by_cases hown : owner = a.uid
      · exact Or.inl ⟨by rw [hown], by simp [hown]⟩
      · exact Or.inr (Or.inr (by simp [hown, Decision.isGranted]))
  | none =>
      cases hmin : found.minOther? a.uid with
      | none =>
          exact Or.inr (Or.inl ⟨rfl, by simp, by simp [Decision.isGranted]⟩)
      | some least =>
          by_cases hcount : found.count a.uid ≤ least
          · exact Or.inr (Or.inl ⟨rfl, by simpa using hcount,
              by simp [hcount, Decision.isGranted]⟩)
          · exact Or.inr (Or.inr (by simp [hcount, Decision.isGranted]))

theorem decide_of_within {a : Admission} {found : Snapshot}
    (howner : found.ownerOf? a.cidr = none)
    (hwithin : forall least, found.minOther? a.uid = some least ->
      found.count a.uid ≤ least) :
    a.decide found = .creating := by
  unfold decide Snapshot.evaluate
  rw [howner]
  cases hmin : found.minOther? a.uid with
  | none => simp [Decision.isGranted]
  | some least => simp [hwithin least hmin, Decision.isGranted]

theorem listed_cases {a : Admission} {found : Snapshot} {token : Option String}
    (h : a.phase = .listing (.reading found token)) (s : ClaimSettings)
    (page : ScanResult) :
    (exists e, (a.listed s (.ok page)).phase = .finished (.error e)) ∨
      exists all, Listing.collect s.root found page.entries = .ok all ∧
        ((exists key, Listing.following page = some key ∧
            (a.listed s (.ok page)).phase = .listing
              (.reading all (some key))) ∨
          (Listing.following page = none ∧
            (a.listed s (.ok page)).phase = a.decide all)) := by
  simp only [listed, h, Listing.receive]
  cases hcollect : Listing.collect s.root found page.entries with
  | error e => exact Or.inl ⟨e, by simp⟩
  | ok all =>
      refine Or.inr ⟨all, rfl, ?_⟩
      cases hfollowing : Listing.following page with
      | some key => exact Or.inl ⟨key, rfl, by simp⟩
      | none => exact Or.inr ⟨rfl, by simp⟩

theorem created_cases {a : Admission} (h : a.phase = .creating)
    (result : Except StoreError WriteResult) :
    (exists w, result = .ok w ∧ (a.created result).phase = .registering) ∨
      (exists e, result = .error e ∧
        ((a.created result).phase = .finished (.ok false) ∨
        exists e', (a.created result).phase = .finished (.error e'))) := by
  simp only [created, h]
  cases result with
  | ok w => exact Or.inl ⟨w, rfl, rfl⟩
  | error e =>
      refine Or.inr ⟨e, rfl, ?_⟩
      cases e with
      | keyExists key => exact Or.inl rfl
      | _ => exact Or.inr ⟨_, rfl⟩

theorem registered_phase {a : Admission} (h : a.phase = .registering) :
    a.registered.phase = .finished (.ok true) := by
  simp only [registered, h]

theorem result?_eq_some_iff {a : Admission} {result : Except ClaimError Bool} :
    a.result? = some result <-> a.phase = .finished result := by
  unfold result?
  cases a.phase <;> simp

end Admission
end FairLease
