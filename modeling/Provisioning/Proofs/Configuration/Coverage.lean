import Provisioning.Proofs.Address.Nesting
import Provisioning.Proofs.Configuration.Rules

/-! # What the verdict on an initial configuration depends on

    Which rule is reported depends on the order of the lists. Whether there is one to report does
    not: it depends on the addresses, on the name servers and on what the routes reach together.
    All changes of a configuration are taken for one notion, `Relaxes`, of which a change keeps a
    valid configuration valid; where it holds both ways the verdict is the same.
-/

namespace Provisioning

namespace InitialConfiguration

variable {c c' : InitialConfiguration}

/-! ### Changes that break no rule -/

/-- `c'` has the addresses of `c`, no further name servers, and routes that reach all that those of
`c` reach; and there is no default route of IPv6 in it unless there is one in `c`. -/
structure Relaxes (c c' : InitialConfiguration) : Prop where
  addresses : c.addresses.Perm c'.addresses
  noDefaultRoute : c.Keeps .noIpv6DefaultRoute → c'.Keeps .noIpv6DefaultRoute
  reaches : ∀ a, c.Reaches a → c'.Reaches a
  servers : c'.dnsServers ⊆ c.dnsServers

theorem isValid_iff : c.isValid = true ↔ ∀ rule, c.Keeps rule := by
  rw [← firstError?_eq_none_iff]
  exact Option.isNone_iff_eq_none

/-- Each rule is kept by a change that relaxes, with the others taken for granted. -/
theorem Relaxes.keeps (h : c.Relaxes c') (hkept : ∀ rule, c.Keeps rule) (rule : Rule) :
    c'.Keeps rule := by
  cases rule with
  | someAddress =>
    intro hempty
    have hperm := h.addresses
    rw [hempty] at hperm
    exact hkept .someAddress hperm.eq_nil
  | noIpv6DefaultRoute => exact h.noDefaultRoute (hkept .noIpv6DefaultRoute)
  | addressesReached =>
    intro a ha
    exact h.reaches a.address (hkept .addressesReached a (h.addresses.mem_iff.mpr ha))
  | serversReached =>
    intro d hd
    exact h.reaches d (hkept .serversReached d (h.servers hd))
  | ipv6Lengths =>
    intro a ha
    exact hkept .ipv6Lengths a (h.addresses.mem_iff.mpr ha)
  | oneIpv4Address =>
    -- That two addresses are not both of IPv4 does not depend on which of them comes first.
    have hone := hkept .oneIpv4Address
    refine h.addresses.pairwise hone ?_
    intro a b hab hba
    exact hab hba.symm

/-- A valid configuration stays valid when it is relaxed. -/
theorem Relaxes.isValid (h : c.Relaxes c') (hvalid : c.isValid = true) : c'.isValid = true :=
  isValid_iff.mpr (h.keeps (isValid_iff.mp hvalid))

/-- Configurations that relax each other have the same verdict. -/
theorem isValid_eq_of_relaxes (h : c.Relaxes c') (h' : c'.Relaxes c) : c'.isValid = c.isValid :=
  Bool.eq_iff_iff.mpr ⟨h'.isValid, h.isValid⟩

/-! ### Lists in another order -/

/-- A configuration that lists the same in another order relaxes it. -/
theorem relaxes_of_perm (haddresses : c.addresses.Perm c'.addresses)
    (hroutes : c.routes.Perm c'.routes) (hservers : c.dnsServers.Perm c'.dnsServers) :
    c.Relaxes c' := by
  refine ⟨haddresses, ?_, ?_, hservers.symm.subset⟩
  · intro hnone r hr
    exact hnone r (hroutes.mem_iff.mpr hr)
  · rintro a ⟨r, hr, hreached⟩
    exact ⟨r, hroutes.mem_iff.mp hr, hreached⟩

/-! ### Other routes -/

theorem reaches_iff (a : IpAddress) : c.Reaches a ↔ ∃ r ∈ c.routes, r.contains a = true := by
  unfold Reaches
  simp only [IpPrefix.contains_iff]

/-- Routes that cover all those of a configuration relax it. -/
theorem relaxes_of_covers {routes : List IpPrefix}
    (hcovers : ∀ r ∈ c.routes, ∃ s ∈ routes, s.Covers r)
    (hnone : c.Keeps .noIpv6DefaultRoute →
      Keeps { c with routes := routes } .noIpv6DefaultRoute) :
    c.Relaxes { c with routes := routes } := by
  refine ⟨.refl _, hnone, ?_, List.Subset.refl _⟩
  intro a ha
  obtain ⟨r, hr, hcontains⟩ := (reaches_iff a).mp ha
  obtain ⟨s, hs, hrs⟩ := hcovers r hr
  exact (reaches_iff a).mpr ⟨s, hs, hrs.contains_of_contains hcontains⟩

section

variable {routes rest : List IpPrefix} {r s : IpPrefix}

/-- A further route relaxes a configuration if it is no default route of IPv6, or not the first. -/
theorem relaxes_insert (hroutes : routes.Perm (s :: c.routes))
    (hs : c.Keeps .noIpv6DefaultRoute → ¬ (s.address.isIpv6 = true ∧ s.length = 0)) :
    c.Relaxes { c with routes := routes } := by
  refine relaxes_of_covers ?_ ?_
  · intro r hr
    exact ⟨r, hroutes.mem_iff.mpr (List.mem_cons_of_mem s hr), r.covers_refl⟩
  · intro hkept r hr
    rcases List.mem_cons.mp (hroutes.mem_iff.mp hr) with rfl | hr
    · exact hs hkept
    · exact hkept r hr

/-- Without a route that another one covers the others still reach the same. -/
theorem relaxes_remove (hroutes : c.routes.Perm (s :: routes)) (hr : r ∈ routes)
    (hcovers : r.Covers s) : c.Relaxes { c with routes := routes } := by
  refine relaxes_of_covers ?_ ?_
  · intro t ht
    -- The route that is gone is the one that `r` covers; the others are still there.
    rcases List.mem_cons.mp (hroutes.mem_iff.mp ht) with rfl | ht
    · exact ⟨r, hr, hcovers⟩
    · exact ⟨t, ht, t.covers_refl⟩
  · intro hkept t ht
    exact hkept t (hroutes.mem_iff.mpr (List.mem_cons_of_mem s ht))

/-- A route may be replaced by one that covers it. -/
theorem relaxes_replace (hfrom : c.routes.Perm (r :: rest)) (hto : routes.Perm (s :: rest))
    (hcovers : s.Covers r) (hs : ¬ (s.address.isIpv6 = true ∧ s.length = 0)) :
    c.Relaxes { c with routes := routes } := by
  refine relaxes_of_covers ?_ ?_
  · intro t ht
    rcases List.mem_cons.mp (hfrom.mem_iff.mp ht) with rfl | ht
    · exact ⟨s, hto.mem_iff.mpr List.mem_cons_self, hcovers⟩
    · exact ⟨t, hto.mem_iff.mpr (List.mem_cons_of_mem s ht), t.covers_refl⟩
  · intro hkept t ht
    rcases List.mem_cons.mp (hto.mem_iff.mp ht) with rfl | ht
    · exact hs
    · exact hkept t (hfrom.mem_iff.mpr (List.mem_cons_of_mem r ht))

/-- Nothing but a default route of IPv6 covers one. -/
theorem isDefault_of_covers (hcovers : r.Covers s)
    (hs : s.address.isIpv6 = true ∧ s.length = 0) : r.address.isIpv6 = true ∧ r.length = 0 := by
  have hlength := hcovers.length_le
  have hfamily := hcovers.family
  refine ⟨?_, by omega⟩
  rw [IpAddress.isIpv6_eq] at hs ⊢
  rw [hfamily]
  exact hs.1

/-- A route that another one covers makes no difference. -/
theorem isValid_insert_nested (hroutes : routes.Perm (s :: c.routes)) (hr : r ∈ c.routes)
    (hcovers : r.Covers s) : isValid { c with routes := routes } = c.isValid := by
  refine isValid_eq_of_relaxes (relaxes_insert hroutes ?_) ?_
  · -- A default route of IPv6 is covered by default routes only, so it is not the first.
    intro hkept hs
    exact hkept r hr (isDefault_of_covers hcovers hs)
  · exact relaxes_remove (c := { c with routes := routes }) hroutes hr hcovers

end

/-! ### Fewer name servers -/

theorem relaxes_servers {servers : List IpAddress} (h : servers ⊆ c.dnsServers) :
    c.Relaxes { c with dnsServers := servers } :=
  ⟨.refl _, id, fun _ => id, h⟩

/-! ### The verdict -/

/-- The verdict depends on what is covered and not on how it is listed. It is the same for lists in
another order, and with or without a route that another route covers, be it a default route of
IPv6. A valid configuration stays valid with a further route, with a route in the place of one that
it covers, the default route of IPv6 apart, and with a name server fewer. -/
theorem verdict_depends_on_coverage (c : InitialConfiguration) :
    (∀ c' : InitialConfiguration, c.addresses.Perm c'.addresses → c.routes.Perm c'.routes →
      c.dnsServers.Perm c'.dnsServers → c'.isValid = c.isValid) ∧
    (∀ routes s, routes.Perm (s :: c.routes) → (∃ r ∈ c.routes, r.Covers s) →
      isValid { c with routes := routes } = c.isValid) ∧
    (∀ routes s, c.routes.Perm (s :: routes) → (∃ r ∈ routes, r.Covers s) →
      isValid { c with routes := routes } = c.isValid) ∧
    (c.isValid = true →
      (∀ routes s, routes.Perm (s :: c.routes) → ¬ (s.address.isIpv6 = true ∧ s.length = 0) →
        isValid { c with routes := routes } = true) ∧
      (∀ routes rest r s, c.routes.Perm (r :: rest) → routes.Perm (s :: rest) → s.Covers r →
        ¬ (s.address.isIpv6 = true ∧ s.length = 0) →
        isValid { c with routes := routes } = true) ∧
      ∀ servers d, c.dnsServers.Perm (d :: servers) →
        isValid { c with dnsServers := servers } = true) := by
  refine ⟨?_, ?_, ?_, ?_⟩
  · intro c' haddresses hroutes hservers
    exact isValid_eq_of_relaxes (relaxes_of_perm haddresses hroutes hservers)
      (relaxes_of_perm haddresses.symm hroutes.symm hservers.symm)
  · rintro routes s hroutes ⟨r, hr, hcovers⟩
    exact isValid_insert_nested hroutes hr hcovers
  · rintro routes s hroutes ⟨r, hr, hcovers⟩
    exact (isValid_insert_nested (c := { c with routes := routes }) hroutes hr hcovers).symm
  · intro hvalid
    refine ⟨?_, ?_, ?_⟩
    · intro routes s hroutes hs
      exact (relaxes_insert hroutes fun _ => hs).isValid hvalid
    · intro routes rest r s hfrom hto hcovers hs
      exact (relaxes_replace hfrom hto hcovers hs).isValid hvalid
    · intro servers d hservers
      refine (relaxes_servers ?_).isValid hvalid
      intro d' hd'
      exact hservers.mem_iff.mpr (List.mem_cons_of_mem d hd')

/-- A configuration of both families: its lists turned round, a route for half of another one put
in and taken out again, the routes widened, a name server taken away; and a second default route of
IPv6 beside a first one, which is what makes the configuration invalid. -/
theorem verdict_depends_on_coverage_bothFamilies :
    let net : IpPrefix := ⟨.v4 0xc0000200, 24, by decide, by decide⟩
    let half : IpPrefix := ⟨.v4 0xc0000280, 25, by decide, by decide⟩
    let wide : IpPrefix := ⟨.v4 0xc0000000, 8, by decide, by decide⟩
    let net6 : IpPrefix := ⟨.v6 0x20010db8000000000000000000000000, 64, by decide, by decide⟩
    let all6 : IpPrefix := ⟨.v6 0, 0, by decide, by decide⟩
    let host : LinkAddress := ⟨.v4 0xc0000201, 24, by decide⟩
    let host6 : LinkAddress := ⟨.v6 0x20010db8000000000000000000000001, 64, by decide⟩
    let c : InitialConfiguration := ⟨[host, host6], [net, net6], [host.address, host6.address]⟩
    let d : InitialConfiguration := { c with routes := [all6, net] }
    c.isValid = true ∧
      isValid ⟨[host6, host], [net6, net], [host6.address, host.address]⟩ = c.isValid ∧
      net.Covers half ∧
      isValid { c with routes := [net, half, net6] } = c.isValid ∧
      isValid { c with routes := [net, net6] } = isValid { c with routes := [net, half, net6] } ∧
      isValid { c with routes := [net, net6, wide] } = true ∧
      wide.Covers net ∧
      isValid { c with routes := [wide, net6] } = true ∧
      isValid { c with dnsServers := [host6.address] } = true ∧
      d.isValid = false ∧
      isValid { d with routes := [all6, net, all6] } = d.isValid := by
  intro net half wide net6 all6 host host6 c d
  have hvalid : c.isValid = true := by decide
  have hhalf : net.Covers half := ⟨by decide, by decide, by decide⟩
  have hwide : wide.Covers net := ⟨by decide, by decide, by decide⟩
  obtain ⟨horder, hinsert, -, hvalidly⟩ := verdict_depends_on_coverage c
  obtain ⟨hfurther, hwiden, hservers⟩ := hvalidly hvalid
  have hremove := (verdict_depends_on_coverage { c with routes := [net, half, net6] }).2.2.1
  have hsecond := (verdict_depends_on_coverage d).2.1
  exact ⟨hvalid,
    horder ⟨[host6, host], [net6, net], [host6.address, host.address]⟩ (.swap _ _ _)
      (.swap _ _ _) (.swap _ _ _),
    hhalf,
    hinsert [net, half, net6] half (.swap _ _ _) ⟨net, List.mem_cons_self, hhalf⟩,
    hremove [net, net6] half (.swap _ _ _) ⟨net, List.mem_cons_self, hhalf⟩,
    hfurther [net, net6, wide] wide (List.perm_append_singleton wide [net, net6]) (by decide),
    hwide,
    hwiden [wide, net6] [net6] net wide (.refl _) (.refl _) hwide (by decide),
    hservers [host6.address] host.address (.refl _),
    by decide,
    hsecond [all6, net, all6] all6 (List.perm_append_singleton all6 [all6, net])
      ⟨all6, List.mem_cons_self, all6.covers_refl⟩⟩

end InitialConfiguration

end Provisioning
