import Mathlib.Data.Fintype.BigOperators
import FairLease.Proofs.Fleet.Inventory
import FairLease.Proofs.Fleet.Readable

/-!
# Races

All calls for an owner list the claims before any of them creates its own. Each
of them finds the owner within the bound, and the owner gains as many claims as
there are calls.
-/

namespace FairLease
namespace Fleet

open MemoryStore

/-!
# Courses

Before the race the two owners have one claim each. The racing calls begin one
after the other, then each lists the claims, and then each creates its own.
-/

structure AreStorable (names : List String) : Prop where
  nodup : names.Nodup
  valid : forall cidr, cidr ∈ names -> ClaimKey.defect? cidr = none
  short : forall cidr, cidr ∈ names ->
    (ClaimKey.ofCidr ClaimSettings.defaultRoot cidr).utf8ByteSize ≤ maxKeySize

def raceStart (first second : String) : Fleet Unit :=
  ((idle .default).withClaim ClaimSettings.defaultRoot first "a").withClaim
    ClaimSettings.defaultRoot second "b"

def race (names : List String) : List (Act Unit) :=
  names.map (.begin () "b") ++
    ((List.range names.length).map .proceed ++
      (List.range names.length).map .proceed)

def racePhase (listed created j : Nat) : Admission.Phase :=
  if j < created then .registering else if j < listed then
    .creating else .listing .start

def raced (first second : String) (names : List String) (created : Nat) :
    List (String × String) :=
  (first, "a") :: (second, "b") :: (names.take created).map
    (fun cidr => (cidr, "b"))

/-- The race has begun for some of the names, which were listed or created in
part. -/
structure IsRacing (first second : String) (names : List String)
    (f : Fleet Unit) (begun listed created : Nat) : Prop where
  manager : (f.members ()).manager =
    { settings := .default, isCancelled := false, registry := .empty }
  keys : f.HasClaimKeys ClaimSettings.defaultRoot
  size : f.calls.size = begun
  call : forall j cidr, j < begun -> names[j]? = some cidr ->
    f.calls[j]? = some ⟨(), "b", cidr, racePhase listed created j⟩
  claims : f.IsInventory ClaimSettings.defaultRoot
    (raced first second names created)

section

variable {first second : String} {names : List String} {f : Fleet Unit}
variable {begun listed created : Nat} {cidr : String}

theorem IsRacing.isRooted
    (h : IsRacing first second names f begun listed created) :
    f.IsRooted ClaimSettings.defaultRoot := by
  intro i
  rw [h.manager]
  rfl

theorem IsRacing.settings_eq
    (h : IsRacing first second names f begun listed created) (c : Call Unit) :
    f.settings c = .default := by
  rw [settings, h.manager]

theorem isRacing_begin (hnames : AreStorable (first :: second :: names))
    (h : IsRacing first second names f begun 0 0)
    (hcidr : names[begun]? = some cidr) :
    IsRacing first second names (f.next (.begin () "b" cidr))
      (begun + 1) 0 0 where
  manager := h.manager
  keys := (step_next f _).hasClaimKeys h.isRooted h.keys
  size := by
    simp [next, h.size]
  call := by
    intro j name hj hname
    have hvalid : ClaimKey.defect? cidr = none :=
      hnames.valid cidr (by simp [List.mem_of_getElem? hcidr])
    rw [next, Array.getElem?_push]
    split
    · rename_i hsize
      rw [hsize, h.size, hcidr] at hname
      cases hname
      rw [h.manager, Manager.attempt, Admission.start]
      simp [Admission.entryError?, hvalid, racePhase]
    · rename_i hsize
      rw [h.size] at hsize
      exact h.call j name (by omega) hname
  claims := h.claims.of_live?_eq (fun _ => rfl)

theorem notMem_raced (hnames : AreStorable (first :: second :: names)) {j : Nat}
    (hj : created ≤ j) (hcidr : names[j]? = some cidr) :
    cidr ∉ (raced first second names created).map (·.1) := by
  have hnodup := hnames.nodup
  have hmem : cidr ∈ names := List.mem_of_getElem? hcidr
  simp only [List.nodup_cons, List.mem_cons, not_or] at hnodup
  rcases hnodup with ⟨⟨_, hfirst⟩, hsecond, hnames'⟩
  simp only [raced, List.map_cons, List.map_map, Function.comp_def,
    List.map_id', List.mem_cons, not_or]
  refine ⟨?_, ?_, ?_⟩
  · rintro rfl
    exact hfirst hmem
  · rintro rfl
    exact hsecond hmem
  · intro htake
    rcases List.mem_iff_getElem?.mp htake with ⟨i, hi⟩
    rw [List.getElem?_take] at hi
    split at hi
    · rename_i hlt
      rcases List.getElem?_eq_some_iff.mp hi with ⟨hlength, _⟩
      have heq : i = j :=
        (List.getElem?_inj hlength hnames').mp (hi.trans hcidr.symm)
      omega
    · cases hi

theorem isRacing_list (hnames : AreStorable (first :: second :: names))
    (h : IsRacing first second names f names.length listed 0)
    (hcidr : names[listed]? = some cidr) :
    IsRacing first second names (f.next (.proceed listed)) names.length
      (listed + 1) 0 := by
  rcases List.getElem?_eq_some_iff.mp hcidr with ⟨hlisted, _⟩
  have hmem : cidr ∈ names := List.mem_of_getElem? hcidr
  have hvalid : ClaimKey.defect? cidr = none :=
    hnames.valid cidr (by simp [hmem])
  have hc := h.call listed cidr hlisted hcidr
  rcases h.claims.snapshot_ok with ⟨s, hs⟩
  have hsize : (f.claims ClaimSettings.defaultRoot).length ≤ 2 :=
    h.claims.length_claims_le
  have hone : f.count ClaimSettings.defaultRoot "b" ≤ 1 := by
    rw [h.claims.count_eq]
    simp [Snapshot.owned, raced]
  have hfresh := notMem_raced hnames (Nat.zero_le listed) hcidr
  have hdecide : Admission.decide ⟨"b", cidr, racePhase listed 0 listed⟩ s =
      .creating :=
    h.claims.decide_eq h.keys hs hvalid hfresh hone
  have hnext := next_listed_whole h.isRooted hc (by simp [racePhase])
    (Nat.le_trans hsize (by rw [h.settings_eq]; decide)) hs
  simp only [hdecide] at hnext
  refine ⟨?_, (step_next f _).hasClaimKeys h.isRooted h.keys, ?_, ?_, ?_⟩
  · rw [hnext]
    exact h.manager
  · rw [hnext, size_setCall]
    exact h.size
  · intro j name hj hname
    rw [hnext, calls_setCall, calls_setStore, h.call j name hj hname]
    by_cases heq : listed = j
    · subst heq
      rw [hcidr] at hname
      cases hname
      simp [racePhase]
    · rw [if_neg heq]
      have hphase : racePhase listed 0 j = racePhase (listed + 1) 0 j := by
        unfold racePhase
        split
        · rfl
        · split <;> split <;> first | rfl | omega
      rw [hphase]
  · rw [hnext]
    refine h.claims.of_live?_eq ?_
    intro key
    exact (purged_scan f.store f.now _).live?_eq key

theorem validate_create {key : String}
    (hlead : Text.startsWith key ClaimSettings.defaultRoot = true)
    (hshort : key.utf8ByteSize ≤ maxKeySize) :
    (Command.createWithTtl key "b" ClaimSettings.default.ttlMs).validate =
      .ok () := by
  have hkey : Command.checkKey key = .ok () := by
    have hne : key.isEmpty = false := by
      rw [Bool.eq_false_iff]
      intro hempty
      rw [String.isEmpty_iff] at hempty
      rw [hempty] at hlead
      exact absurd hlead (by decide)
    simp [Command.checkKey, hne, Nat.not_lt.mpr hshort]
  exact validate_createWithTtl hkey (by decide) (by decide)

theorem isRacing_create (hnames : AreStorable (first :: second :: names))
    (h : IsRacing first second names f names.length names.length created)
    (hcidr : names[created]? = some cidr) :
    IsRacing first second names (f.next (.proceed created))
      names.length names.length
      (created + 1) := by
  rcases List.getElem?_eq_some_iff.mp hcidr with ⟨hcreated, _⟩
  have hmem : cidr ∈ first :: second :: names := by
    simp [List.mem_of_getElem? hcidr]
  have hc := h.call created cidr hcreated hcidr
  have hphase : racePhase names.length created created = .creating := by
    simp [racePhase, hcreated]
  have hcommand : (Admission.command (f.settings ⟨(), "b", cidr, .creating⟩)
      ⟨"b", cidr, .creating⟩).validate = .ok () := by
    rw [h.settings_eq]
    exact validate_create (ClaimKey.startsWith_ofCidr _ cidr)
      (hnames.short cidr hmem)
  rw [hphase] at hc
  rcases h.claims.created h.isRooted hc rfl (hnames.valid cidr hmem)
    (notMem_raced hnames (Nat.le_refl created) hcidr) hcommand with
      ⟨hclaims, hcalls⟩
  refine ⟨?_, (step_next f _).hasClaimKeys h.isRooted h.keys, ?_, ?_, ?_⟩
  · rw [next_created hc rfl]
    exact h.manager
  · rw [hcalls, size_setCall]
    exact h.size
  · intro j name hj hname
    rw [hcalls, calls_setCall, h.call j name hj hname]
    by_cases heq : created = j
    · subst heq
      rw [hcidr] at hname
      cases hname
      simp [racePhase]
    · rw [if_neg heq]
      have hphase' : racePhase names.length created j =
          racePhase names.length (created + 1) j := by
        unfold racePhase
        split <;> split <;> first | rfl | omega
      rw [hphase']
  · rw [raced, List.take_add_one, hcidr, List.map_append]
    exact hclaims

/-!
# The race as a whole
-/

theorem isRacing_start (hnames : AreStorable (first :: second :: names)) :
    IsRacing first second names (raceStart first second) 0 0 0 where
  manager := rfl
  keys := by
    refine hasClaimKeys_withClaim (hasClaimKeys_withClaim ?_ _ _) _ _
    intro key e hget _
    rw [idle, get?_empty] at hget
    cases hget
  size := rfl
  call := by
    intro j cidr hj
    exact absurd hj (Nat.not_lt_zero j)
  claims := by
    have hnone : (idle .default : Fleet Unit).IsInventory
        ClaimSettings.defaultRoot [] := by
      refine ⟨List.nodup_nil, by simp, ?_⟩
      intro key uid _
      simp [Holds, idle, live?, get?_empty]
    have hdistinct : second ≠ first := by
      have hnodup := hnames.nodup
      rw [List.nodup_cons] at hnodup
      intro heq
      exact hnodup.left (by simp [heq])
    have hfirst := hnone.withClaim (hnames.valid first (by simp)) (by simp) "a"
    exact hfirst.withClaim (hnames.valid second (by simp))
      (by simpa using hdistinct) "b"

theorem race_begin {n : Nat} (h : names[n]? = some cidr) :
    (race names)[n]? = some (.begin () "b" cidr) := by
  rcases List.getElem?_eq_some_iff.mp h with ⟨hn, _⟩
  rw [race, List.getElem?_append_left (by simpa using hn), List.getElem?_map, h,
    Option.map_some]

theorem race_list {n : Nat} (h : n < names.length) :
    (race names)[names.length + n]? = some (.proceed n) := by
  rw [race, List.getElem?_append_right (by simp)]
  rw [List.getElem?_append_left (by simpa using h)]
  simp [h]

theorem race_create {n : Nat} (h : n < names.length) :
    (race names)[2 * names.length + n]? = some (.proceed n) := by
  rw [race, List.getElem?_append_right (by simp; omega)]
  rw [List.getElem?_append_right (by simp; omega)]
  have hn : 2 * names.length + n - names.length - names.length = n := by omega
  simp [hn, h]

theorem isRacing_begun (hnames : AreStorable (first :: second :: names))
    {n : Nat} (hn : n ≤ names.length) :
    IsRacing first second names
      ((raceStart first second).after (race names) n) n 0 0 := by
  induction n with
  | zero => exact isRacing_start hnames
  | succ n ih =>
      have hcidr : names[n]? = some names[n] := List.getElem?_eq_getElem hn
      rw [after_succ (race_begin hcidr)]
      exact isRacing_begin hnames (ih (Nat.le_of_lt hn)) hcidr

theorem isRacing_listed (hnames : AreStorable (first :: second :: names))
    {n : Nat} (hn : n ≤ names.length) :
    IsRacing first second names
      ((raceStart first second).after (race names) (names.length + n))
      names.length n 0 := by
  induction n with
  | zero => exact isRacing_begun hnames (Nat.le_refl _)
  | succ n ih =>
      rw [← Nat.add_assoc, after_succ (race_list hn)]
      exact isRacing_list hnames (ih (Nat.le_of_lt hn))
        (List.getElem?_eq_getElem hn)

theorem isRacing_created (hnames : AreStorable (first :: second :: names))
    {n : Nat} (hn : n ≤ names.length) :
    IsRacing first second names
      ((raceStart first second).after (race names) (2 * names.length + n))
      names.length names.length n := by
  induction n with
  | zero =>
      rw [Nat.two_mul]
      exact isRacing_listed hnames (Nat.le_refl _)
  | succ n ih =>
      rw [← Nat.add_assoc, after_succ (race_create hn)]
      exact isRacing_create hnames (ih (Nat.le_of_lt hn))
        (List.getElem?_eq_getElem hn)

theorem race_isCall {act : Act Unit} (h : act ∈ race names) : act.IsCall := by
  rw [race, List.mem_append, List.mem_append] at h
  rcases h with h | h | h
  · rcases List.mem_map.mp h with ⟨_, _, rfl⟩
    exact trivial
  · rcases List.mem_map.mp h with ⟨_, _, rfl⟩
    exact trivial
  · rcases List.mem_map.mp h with ⟨_, _, rfl⟩
    exact trivial

theorem length_race (names : List String) :
    (race names).length = 2 * names.length + names.length := by
  simp only [race, List.length_append, List.length_map, List.length_range]
  omega

theorem race_size (hnames : AreStorable (first :: second :: names)) (n : Nat) :
    ((raceStart first second).after (race names) n).calls.size ≤
      names.length := by
  rcases Nat.le_total n names.length with hbegin | hbegin
  · rw [(isRacing_begun hnames hbegin).size]
    exact hbegin
  · rcases Nat.le_total n (2 * names.length) with hlist | hlist
    · rcases Nat.exists_eq_add_of_le hbegin with ⟨m, rfl⟩
      exact Nat.le_of_eq (isRacing_listed hnames (by omega)).size
    · rcases Nat.exists_eq_add_of_le hlist with ⟨m, rfl⟩
      rcases Nat.le_total m names.length with hcreate | hcreate
      · exact Nat.le_of_eq (isRacing_created hnames hcreate).size
      · have hend : (raceStart first second).after (race names)
            (2 * names.length + m) =
            (raceStart first second).after (race names)
            (2 * names.length + names.length) := by
          rw [← length_race names]
          exact stateAt_of_length_le (by rw [length_race]; omega)
        rw [hend]
        exact Nat.le_of_eq (isRacing_created hnames (Nat.le_refl _)).size

theorem owned_raced (first second : String) (names : List String) :
    Snapshot.owned (raced first second names names.length) "a" = 1 ∧
      Snapshot.owned (raced first second names names.length) "b" =
        names.length + 1 := by
  rw [raced, List.take_length]
  constructor
  · simp [Snapshot.owned, List.countP_map, Function.comp_def]
  · simp [Snapshot.owned, List.countP_map, Function.comp_def]

end

/-!
# Names
-/

def binaryName (bits : List Bool) : String :=
  String.ofList (bits.map (fun bit => if bit then '1' else '0'))

theorem binaryName_injective {bits bits' : List Bool}
    (h : binaryName bits = binaryName bits') :
    bits = bits' := by
  have hlist := String.ofList_injective h
  refine List.map_injective_iff.mpr ?_ hlist
  intro a b hab
  cases a <;> cases b <;> first | rfl | simp at hab

theorem notMem_binaryName {bits : List Bool} {c : Char} (hzero : c ≠ '0')
    (hone : c ≠ '1') :
    c ∉ (binaryName bits).toList := by
  rw [binaryName, String.toList_ofList, List.mem_map]
  rintro ⟨bit, _, rfl⟩
  cases bit with
  | false => exact hzero rfl
  | true => exact hone rfl

theorem utf8ByteSize_binaryName (bits : List Bool) :
    (binaryName bits).utf8ByteSize = bits.length := by
  induction bits with
  | nil => rfl
  | cons bit rest ih =>
      rw [binaryName, String.utf8ByteSize_ofList] at ih ⊢
      rw [List.map_cons, String.utf8Len_cons, ih, List.length_cons]
      cases bit <;> rfl

theorem defect?_binaryName {bits : List Bool} (h : bits ≠ []) :
    ClaimKey.defect? (binaryName bits) = none := by
  have hcolon : ':' ∉ (binaryName bits).toList :=
    notMem_binaryName (by decide) (by decide)
  have hslash : '/' ∉ (binaryName bits).toList :=
    notMem_binaryName (by decide) (by decide)
  rw [ClaimKey.defect?_eq_none_iff]
  refine ⟨?_, ClaimKey.hasPair_of_notMem hcolon _,
    ClaimKey.hasPair_of_notMem hcolon _, ClaimKey.hasPair_of_notMem hslash _⟩
  rw [binaryName, String.toList_ofList]
  simpa using h

theorem utf8ByteSize_key_binaryName (root : String) (bits : List Bool) :
    (ClaimKey.ofCidr root (binaryName bits)).utf8ByteSize =
      root.utf8ByteSize + bits.length := by
  have hslash : '/' ∉ (binaryName bits).toList :=
    notMem_binaryName (by decide) (by decide)
  rw [ClaimKey.ofCidr, ClaimKey.escape_of_notMem hslash, String.ofList_toList,
    String.utf8ByteSize_append, utf8ByteSize_binaryName]

/-- There are names enough for more claims than any store will ever hold. -/
theorem exists_storable {m n : Nat} (hpos : 0 < m) (hm : m ≤ 1000)
    (hn : n ≤ 2 ^ m) :
    exists names, AreStorable names ∧ names.length = n := by
  let all : List (Fin m -> Bool) :=
    (Finset.univ : Finset (Fin m -> Bool)).toList
  have hlength : all.length = 2 ^ m := by
    rw [Finset.length_toList, Finset.card_univ, Fintype.card_fun,
      Fintype.card_bool, Fintype.card_fin]
  have hbits {cidr : String}
      (h : cidr ∈ (all.take n).map (fun bits => binaryName (List.ofFn bits))) :
      exists bits : List Bool, bits.length = m ∧ cidr = binaryName bits := by
    rcases List.mem_map.mp h with ⟨bits, _, rfl⟩
    exact ⟨List.ofFn bits, List.length_ofFn, rfl⟩
  refine ⟨(all.take n).map (fun bits => binaryName (List.ofFn bits)),
    ⟨?_, ?_, ?_⟩, ?_⟩
  · refine List.Nodup.map ?_
      ((Finset.nodup_toList _).sublist (List.take_sublist n _))
    intro bits bits' heq
    exact List.ofFn_injective (binaryName_injective heq)
  · intro cidr hcidr
    rcases hbits hcidr with ⟨bits, hsize, rfl⟩
    apply defect?_binaryName
    rintro rfl
    rw [List.length_nil] at hsize
    omega
  · intro cidr hcidr
    rcases hbits hcidr with ⟨bits, hsize, rfl⟩
    have hroot : ClaimSettings.defaultRoot.utf8ByteSize = 9 := rfl
    rw [utf8ByteSize_key_binaryName, hsize, hroot, maxKeySize]
    omega
  · rw [List.length_map, List.length_take, hlength]
    exact Nat.min_eq_left hn

/-!
# Fairness as a whole
-/

/-- A run without calls at first in which no claim is removed and at most `k`
calls for `uid` are in flight together. -/
structure OverlapsBy {ι : Type} [DecidableEq ι] (start : Fleet ι)
    (acts : List (Act ι)) (root uid : String) (k : Nat) : Prop where
  rooted : start.IsRooted root
  keys : start.HasClaimKeys root
  calls : start.calls = #[]
  keeps : KeepsClaims start acts root
  flight : forall m, ((start.after acts m).inFlight uid).card ≤ k

theorem overlapsBy_race {first second : String} {names : List String}
    (hnames : AreStorable (first :: second :: names)) :
    OverlapsBy (raceStart first second)
      (race names) ClaimSettings.defaultRoot "b"
      names.length where
  rooted := (isRacing_start hnames).isRooted
  keys := (isRacing_start hnames).keys
  calls := rfl
  keeps := keepsClaims_of_calls (fun _ hact => race_isCall hact) _
  flight := by
    intro m
    refine Nat.le_trans (Finset.card_filter_le _ _) ?_
    rw [Finset.card_range]
    exact race_size hnames m

/-- The last of the racing calls creates its claim. -/
theorem createsAt_race {first second cidr : String} {names : List String}
    {last : Nat} (hnames : AreStorable (first :: second :: names))
    (hlast : last + 1 = names.length) (hcidr : names[last]? = some cidr) :
    CreatesAt (raceStart first second)
      (race names) last ⟨(), "b", cidr, .creating⟩
      (2 * names.length + last) := by
  have hlt : last < names.length := by omega
  have hbefore :=
    (isRacing_created hnames (Nat.le_of_lt hlt)).call last cidr hlt hcidr
  have hafter := (isRacing_created hnames hlt).call last cidr hlt hcidr
  have hcreating : racePhase names.length last last = .creating := by
    simp [racePhase, hlt]
  have hregistering : racePhase names.length (last + 1) last =
      .registering := by
    simp [racePhase]
  rw [hcreating] at hbefore
  rw [Nat.succ_eq_add_one, hregistering] at hafter
  exact ⟨race_create hlt, hbefore, rfl, _, hafter, rfl⟩

theorem count_raceStart {first second : String} {names : List String}
    (hnames : AreStorable (first :: second :: names)) :
    (raceStart first second).count ClaimSettings.defaultRoot "a" = 1 := by
  rw [(isRacing_start hnames).claims.count_eq]
  simp [Snapshot.owned, raced]

theorem count_race {first second : String} {names : List String} {last : Nat}
    (hnames : AreStorable (first :: second :: names))
    (hlast : last + 1 = names.length) :
    ((raceStart first second).after (race names)
      (2 * names.length + last + 1)).count
        ClaimSettings.defaultRoot "b" =
      ((raceStart first second).after (race names)
        (2 * names.length + last + 1)).count
        ClaimSettings.defaultRoot "a" + names.length := by
  have hend := (isRacing_created hnames (Nat.le_refl _)).claims
  rw [Nat.add_assoc, hlast, hend.count_eq, hend.count_eq,
    (owned_raced first second names).left,
    (owned_raced first second names).right, Nat.add_comm]

section

variable {ι : Type} [DecidableEq ι] {start : Fleet ι} {acts : List (Act ι)}
  {root uid : String}
variable {k : Nat}

theorem OverlapsBy.count_le (hrun : OverlapsBy start acts root uid k)
    {j n : Nat} {c : Call ι} (hcreates : CreatesAt start acts j c n)
    (huid : c.admission.uid = uid) {o : String} (hne : o ≠ uid)
    (hpos : 0 < start.count root o) :
    ((start.after acts (n + 1)).count root o < Snapshot.maxCount ->
      (start.after acts (n + 1)).count root uid ≤
        (start.after acts (n + 1)).count root o + k) ∧
    exists s, (start.after acts (n + 1)).snapshot root = .ok s ∧
      s.count uid ≤ s.count o + k := by
  have hattempt : AttemptsAt start acts uid j n := by
    rcases hcreates with ⟨hact, hc, hphase, _⟩
    exact ⟨hact, c, hc, hphase, huid⟩
  have hbound :=
    count_le_of_attempt hrun.keeps hrun.rooted hrun.keys hrun.calls hrun.flight
    hattempt hne hpos
  constructor
  · intro hcounted
    omega
  · rcases snapshot_of_attempt hrun.keeps hrun.rooted hrun.keys hrun.calls
      hattempt with ⟨s, hs⟩
    have hkeys : (start.after acts (n + 1)).HasClaimKeys root :=
      hasClaimKeys_after hrun.rooted hrun.keys (n + 1)
    refine ⟨s, hs, ?_⟩
    rw [count_snapshot hkeys hs, count_snapshot hkeys hs]
    omega

end

/-- The bound on overlapping calls, and why there is no better one: (1) right
after a call has created its claim, its owner is ahead of nobody who held a
claim at first by more than the number of its calls in flight, in live claims as
in a snapshot; (2) it can be ahead by just as many, given the names for them;
(3) there are such names. -/
theorem concurrent_fairness :
    (forall (ι : Type) [DecidableEq ι] (start : Fleet ι) (acts : List (Act ι))
      (root uid : String)
      (k : Nat), OverlapsBy start acts root uid k ->
        forall j c n, CreatesAt start acts j c n -> c.admission.uid = uid ->
          forall o, o ≠ uid -> 0 < start.count root o ->
            ((start.after acts (n + 1)).count root o < Snapshot.maxCount ->
              (start.after acts (n + 1)).count root uid ≤
                (start.after acts (n + 1)).count root o + k) ∧
            exists s, (start.after acts (n + 1)).snapshot root = .ok s ∧
              s.count uid ≤ s.count o + k) ∧
    (forall k, 0 < k -> forall names, AreStorable names ->
      names.length = k + 2 ->
      exists (start : Fleet Unit) (acts : List (Act Unit))
        (root uid o : String) (j : Nat)
        (c : Call Unit) (n : Nat), OverlapsBy start acts root uid k ∧
          CreatesAt start acts j c n ∧ c.admission.uid = uid ∧
          n + 1 = acts.length ∧ o ≠ uid ∧
          0 < start.count root o ∧
          (start.after acts (n + 1)).count root uid =
            (start.after acts (n + 1)).count root o + k) ∧
    (forall k, k + 2 ≤ 2 ^ 1000 -> exists names, AreStorable names ∧
      names.length = k + 2) := by
  refine ⟨?_, ?_, ?_⟩
  · intro ι _ start acts root uid k hrun j c n hcreates huid o hne hpos
    exact hrun.count_le hcreates huid hne hpos
  · intro k hk names hnames hlength
    match names with
    | first :: second :: rest =>
        have hrest : rest.length = k := by
          simp only [List.length_cons] at hlength
          omega
        subst hrest
        rcases Nat.exists_eq_add_of_lt hk with ⟨last, hlast⟩
        rw [Nat.zero_add] at hlast
        have hcidr : rest[last]? = some rest[last] :=
          List.getElem?_eq_getElem (by omega)
        refine ⟨raceStart first second, race rest, ClaimSettings.defaultRoot,
          "b", "a", last, _, _, overlapsBy_race hnames,
          createsAt_race hnames hlast.symm hcidr, rfl, ?_, by decide, ?_,
          count_race hnames hlast.symm⟩
        · rw [length_race]
          omega
        · rw [count_raceStart hnames]
          exact Nat.zero_lt_one
  · intro k hk
    exact exists_storable (by decide) (Nat.le_refl 1000) hk

/-- Two calls for `b` race for `y` and `z`, while `a` keeps its only claim. -/
theorem concurrent_fairness_race :
    ((raceStart "w" "x").after (race ["y", "z"]) 6).count
      ClaimSettings.defaultRoot "b" ≤
        ((raceStart "w" "x").after (race ["y", "z"]) 6).count
          ClaimSettings.defaultRoot "a" + 2 ∧
      exists (start : Fleet Unit) (acts : List (Act Unit)) (root uid o : String)
        (n : Nat), (start.after acts n).count root uid =
          (start.after acts n).count root o + 2 := by
  have hnames : AreStorable ["w", "x", "y", "z"] :=
    ⟨by decide, by decide, by decide⟩
  have hcreates : CreatesAt (raceStart "w" "x") (race ["y", "z"]) 1 ⟨(), "b",
      "z", .creating⟩ 5 :=
    createsAt_race hnames rfl rfl
  have hfirst : 0 < (raceStart "w" "x").count
      ClaimSettings.defaultRoot "a" := by
    rw [count_raceStart hnames]
    exact Nat.zero_lt_one
  have hcounted : ((raceStart "w" "x").after (race ["y", "z"]) 6).count
      ClaimSettings.defaultRoot "a" < Snapshot.maxCount := by
    decide
  rcases concurrent_fairness with ⟨hbound, htight, _⟩
  constructor
  · have hboth :=
      hbound Unit _ _ _ "b" 2 (overlapsBy_race hnames) 1 _ 5 hcreates rfl "a"
      (by decide) hfirst
    exact hboth.left hcounted
  · rcases htight 2 (by decide) _ hnames rfl with
      ⟨start, acts, root, uid, o, _, _, n, _, _, _, _, _, _, hlead⟩
    exact ⟨start, acts, root, uid, o, n + 1, hlead⟩

end Fleet
end FairLease
