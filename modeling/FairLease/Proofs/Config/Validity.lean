import FairLease.Config.Validation
import FairLease.Proofs.Claim.Domain
import FairLease.Proofs.Claim.Lifetime

/-!
# Valid configurations

A configuration that is checked to the end has no defect on the way. The check
is made on what is derived from it: the settings of the manager, and the
addresses with their masks.
-/

namespace FairLease
namespace NodeConfig

/-!
# The check
-/

structure IsValid (c : NodeConfig) : Prop where
  iface : c.iface.isEmpty = false
  mask : c.mask ≤ maxMask
  hostname : c.hostname ≠ some ""
  requestTimeout : c.requestTimeoutMs ≠ 0
  endpoints : ¬ (c.manager = .fair ∧ c.store = .etcd ∧ c.endpoints = [])
  settings : c.settings.IsValid
  served : forall cidr, cidr ∈ c.served -> ClaimKey.defect? cidr = none

section

variable {c : NodeConfig}

theorem servedDefect?_eq_none_iff :
    c.servedDefect? = none <-> forall cidr, cidr ∈ c.served ->
      ClaimKey.defect? cidr = none := by
  simp only [servedDefect?, List.findSome?_eq_none_iff, Option.map_eq_none_iff]

theorem defect?_eq_none_iff : c.defect? = none <-> c.IsValid := by
  unfold defect?
  cases hsettings : c.settings.defect? with
  | some defect =>
      have hinvalid : ¬ c.IsValid := by
        intro h
        rw [(ClaimSettings.defect?_eq_none_iff _).mpr h.settings] at hsettings
        cases hsettings
      simp [ite_some_eq_none_iff, hinvalid]
  | none =>
      have hvalid := (ClaimSettings.defect?_eq_none_iff _).mp hsettings
      simp only [ite_some_eq_none_iff, Option.map_eq_none_iff,
        servedDefect?_eq_none_iff]
      constructor
      · rintro ⟨hiface, hmask, hhostname, htimeout, hendpoints, hserved⟩
        exact ⟨Bool.eq_false_of_not_eq_true hiface, Nat.not_lt.mp hmask,
          hhostname, htimeout, hendpoints, hvalid, hserved⟩
      · intro h
        exact ⟨by simp [h.iface], Nat.not_lt.mpr h.mask, h.hostname,
          h.requestTimeout, h.endpoints, h.served⟩

theorem validate_eq_ok_iff : c.validate = .ok () <-> c.IsValid := by
  rw [← defect?_eq_none_iff, validate]
  cases c.defect? with
  | none => simp
  | some defect => simp

theorem settings_defect?_of_validate (h : c.validate = .ok ()) :
    c.settings.defect? = none :=
  (ClaimSettings.defect?_eq_none_iff _).mpr (validate_eq_ok_iff.mp h).settings

/-!
# Times

Settings are made of whole milliseconds, of which nothing is left out as long as
they fit 64 bits.
-/

theorem ttlMs_settings (h : c.ttlMs < wordSize 64) :
    c.settings.ttlMs = c.ttlMs := by
  rw [ClaimSettings.ttlMs, Duration.millis, settings, Duration.ofMillis,
    Nat.mul_div_cancel _ (by decide), Nat.mod_eq_of_lt h]

theorem IsValid.renewIntervalMs_pos (h : c.IsValid) : 0 < c.renewIntervalMs :=
  Nat.pos_of_mul_pos_right h.settings.renewInterval

theorem IsValid.renewIntervalMs_lt (h : c.IsValid) :
    c.renewIntervalMs < c.ttlMs :=
  Nat.lt_of_mul_lt_mul_right h.settings.inTime

theorem IsValid.manager_new (h : c.IsValid) :
    Manager.new c.settings = .ok ⟨c.settings, false, .empty⟩ := by
  rw [Manager.new, (ClaimSettings.validate_eq_ok_iff _).mpr h.settings]
  rfl

/-!
# Served identifiers

An address without a mask gets one, behind a slash, before it is checked. An
address that ends with a colon is refused then.
-/

theorem slash_mem_withMask (mask : Nat) (cidr : String) :
    '/' ∈ (withMask mask cidr).toList := by
  unfold withMask
  split
  · rename_i hslash
    exact List.contains_iff_mem.mp hslash
  · simp [String.toList_append]

theorem slash_mem_of_served {cidr : String} (h : cidr ∈ c.served) :
    '/' ∈ cidr.toList := by
  rcases List.mem_map.mp h with ⟨address, _, rfl⟩
  exact slash_mem_withMask c.mask address

theorem not_isValid_of_colon {address : String} {cs : List Char}
    (haddress : address ∈ c.cidrs) (hslash : '/' ∉ address.toList)
    (hcolon : address.toList = cs ++ [':']) : ¬ c.IsValid := by
  intro h
  have hmasked : withMask c.mask address = address ++ "/" ++
      toString c.mask := by
    rw [withMask, if_neg (by simpa using hslash)]
  have hpair : ClaimKey.hasPair ':' '/' (withMask c.mask address).toList =
      true := by
    rw [ClaimKey.hasPair_eq_true_iff, hmasked, String.toList_append,
      String.toList_append, hcolon]
    exact ⟨cs, (toString c.mask).toList, by simp⟩
  have hserved := h.served _ (List.mem_map.mpr ⟨address, haddress, rfl⟩)
  rw [(ClaimKey.defect?_eq_none_iff.mp hserved).right.right.left] at hpair
  cases hpair

theorem IsValid.toCidr_ofCidr (h : c.IsValid) {cidr : String}
    (hcidr : cidr ∈ c.served) :
    ClaimKey.toCidr c.root (ClaimKey.ofCidr c.root cidr) = .ok cidr :=
  ClaimKey.toCidr_ofCidr c.root (h.served cidr hcidr)

theorem IsValid.ofCidr_injective (h : c.IsValid) {cidr cidr' : String}
    (hcidr : cidr ∈ c.served) (hcidr' : cidr' ∈ c.served)
    (heq : ClaimKey.ofCidr c.root cidr = ClaimKey.ofCidr c.root cidr') :
    cidr = cidr' :=
  ClaimKey.ofCidr_injective (h.served cidr hcidr) (h.served cidr' hcidr') heq

end

end NodeConfig
end FairLease
