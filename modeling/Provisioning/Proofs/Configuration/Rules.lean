import Provisioning.Configuration
import Provisioning.Proofs.Address.Containment
import Provisioning.Proofs.Codec

/-! # The rules of initial configurations

    There are six rules, checked in a fixed order. Each is said here without the check: that an
    address is reached by a route is said in bits, and which complaint goes with a broken rule is
    said by the first element of a list that breaks it. The message about a broken rule has the
    words of the rule around the text of that element, and from the message both can be told. The
    check as a whole goes through the rules and stops at the first complaint. So a configuration
    that keeps all the rules is accepted, and of one that does not the first broken rule is
    reported.
-/

namespace Provisioning

/-! ### First elements -/

/-- `x` is the first element of a list with a property. -/
def IsFirst {α : Type} (p : α → Prop) (xs : List α) (x : α) : Prop :=
  ∃ before behind, xs = before ++ x :: behind ∧ p x ∧ ∀ y ∈ before, ¬ p y

section

variable {α β : Type} {p : α → Prop} {q : α → Bool}

/-- What is reported about the first element with a property is reported about one. -/
theorem map_find?_eq_some_iff (h : ∀ x, q x = true ↔ p x) (report : α → β) (xs : List α) (e : β) :
    (xs.find? q).map report = some e ↔ ∃ x, IsFirst p xs x ∧ report x = e := by
  simp only [Option.map_eq_some_iff, List.find?_eq_some_iff_append]
  constructor
  · rintro ⟨x, ⟨hx, before, behind, hxs, hbefore⟩, rfl⟩
    refine ⟨x, ⟨before, behind, hxs, (h x).mp hx, ?_⟩, rfl⟩
    intro y hy hp
    have hnot := hbefore y hy
    rw [(h y).mpr hp] at hnot
    cases hnot
  · rintro ⟨x, ⟨before, behind, hxs, hx, hbefore⟩, rfl⟩
    refine ⟨x, ⟨(h x).mpr hx, before, behind, hxs, ?_⟩, rfl⟩
    intro y hy
    rw [Bool.not_eq_true', Bool.eq_false_iff]
    intro hq
    exact hbefore y hy ((h y).mp hq)

/-- Nothing is reported if no element has the property. -/
theorem map_find?_eq_none_iff (h : ∀ x, q x = true ↔ p x) (report : α → β) (xs : List α) :
    (xs.find? q).map report = none ↔ ∀ x ∈ xs, ¬ p x := by
  rw [Option.map_eq_none_iff, List.find?_eq_none]
  constructor
  · intro hnone x hx hp
    exact hnone x hx ((h x).mpr hp)
  · intro hnone x hx hq
    exact hnone x hx ((h x).mp hq)

end

/-- At most one element is kept by a filter if no two of the list would be. -/
theorem length_filter_le_one_iff {α : Type} (q : α → Bool) (xs : List α) :
    (xs.filter q).length ≤ 1 ↔ xs.Pairwise fun x y => ¬ (q x = true ∧ q y = true) := by
  induction xs with
  | nil => simp
  | cons x xs ih =>
    rw [List.pairwise_cons, ← ih]
    by_cases hx : q x = true
    · -- Nothing behind the first one may be kept, and then nothing is.
      rw [List.filter_cons_of_pos hx, List.length_cons]
      constructor
      · intro hle
        have hnil : xs.filter q = [] := by
          apply List.eq_nil_of_length_eq_zero
          omega
        rw [List.filter_eq_nil_iff] at hnil
        refine ⟨?_, ?_⟩
        · intro y hy hboth
          exact hnil y hy hboth.2
        · rw [List.filter_eq_nil_iff.mpr hnil]
          exact Nat.zero_le 1
      · rintro ⟨hnone, -⟩
        have hnil : xs.filter q = [] := by
          apply List.filter_eq_nil_iff.mpr
          intro y hy hq
          exact hnone y hy ⟨hx, hq⟩
        rw [hnil]
        exact Nat.le_refl 1
    · rw [List.filter_cons_of_neg hx]
      constructor
      · intro hle
        refine ⟨?_, hle⟩
        intro y _ hboth
        exact hx hboth.1
      · intro h
        exact h.2

/-! ### Rules -/

/-- A rule for initial configurations. -/
inductive Rule
  /-- There is an address. -/
  | someAddress
  /-- No route is the default route of IPv6. -/
  | noIpv6DefaultRoute
  /-- Every address is reached. -/
  | addressesReached
  /-- Every name server is reached. -/
  | serversReached
  /-- Every IPv6 address has the length of autoconfiguration. -/
  | ipv6Lengths
  /-- No two entries are IPv4 addresses, even if they are the same. -/
  | oneIpv4Address

/-- The rules in the order in which they are checked. -/
def Rule.inOrder : List Rule :=
  [.someAddress, .noIpv6DefaultRoute, .addressesReached, .serversReached, .ipv6Lengths,
    .oneIpv4Address]

theorem Rule.mem_inOrder (rule : Rule) : rule ∈ inOrder := by
  cases rule <;> simp [inOrder]

/-! ### Messages -/

namespace Rule

/-- The words of the message about a rule, in front of the element that is named and behind it. Two
of the rules name none. -/
def words : Rule → String × String
  | someAddress => ("no IP address defined", "")
  | noIpv6DefaultRoute => ("IPv6 default route ", " cannot be directly connected")
  | addressesReached => ("IP address ", " is not covered by any directly connected route")
  | serversReached => ("DNS server ", " is not covered by any directly connected route")
  | ipv6Lengths => ("IPv6 address ", " should use prefix length 64")
  | oneIpv4Address => ("more than one IPv4 address defined", "")

/-- The message about a rule, given the text of the element that is named. -/
def message (rule : Rule) (element : String) : String :=
  "Invalid initial configuration: " ++ (rule.words.1 ++ element ++ rule.words.2)

/-- The beginning of the words about a rule, which is long enough to be another one for each. -/
def front (rule : Rule) : List Char :=
  rule.words.1.toList.take 6

theorem front_injective : Function.Injective front := by
  intro rule rule' h
  cases rule <;> cases rule'
  all_goals first | rfl | exact absurd h (by decide)

theorem take_words_append (rule : Rule) (cs : List Char) :
    (rule.words.1.toList ++ cs).take 6 = rule.front := by
  have hlength : 6 ≤ rule.words.1.toList.length := by
    cases rule <;> decide
  rw [List.take_append_of_le_length hlength, front]

theorem toList_message (rule : Rule) (element : String) :
    (rule.message element).toList = "Invalid initial configuration: ".toList ++
      (rule.words.1.toList ++ (element.toList ++ rule.words.2.toList)) := by
  unfold message
  simp only [String.toList_append, List.append_assoc]

/-- The rule and the element can be told from the message. -/
theorem message_inj {rule rule' : Rule} {element element' : String}
    (h : rule.message element = rule'.message element') : rule = rule' ∧ element = element' := by
  have htext := congrArg String.toList h
  rw [toList_message, toList_message, List.append_cancel_left_eq] at htext
  -- The first words of no rule are the beginning of those of another.
  have hfront := congrArg (List.take 6) htext
  rw [take_words_append, take_words_append] at hfront
  obtain rfl := front_injective hfront
  have helement := List.append_cancel_right (List.append_cancel_left htext)
  exact ⟨rfl, String.toList_inj.mp helement⟩

end Rule

namespace InitialConfigurationError

/-- The rule that a complaint is about. -/
def rule : InitialConfigurationError → Rule
  | noAddress => .someAddress
  | ipv6DefaultRoute _ => .noIpv6DefaultRoute
  | unreachableAddress _ => .addressesReached
  | unreachableServer _ => .serversReached
  | wrongIpv6Length _ => .ipv6Lengths
  | severalIpv4Addresses => .oneIpv4Address

/-- The text of the element that a complaint names, if it names one. -/
def element : InitialConfigurationError → String
  | ipv6DefaultRoute route => toString route
  | unreachableAddress address | wrongIpv6Length address => toString address
  | unreachableServer server => toString server
  | noAddress | severalIpv4Addresses => ""

/-- What is wrong is said in the words for the rule, around the element. -/
theorem detail_eq (e : InitialConfigurationError) :
    e.detail = e.rule.words.1 ++ e.element ++ e.rule.words.2 := by
  cases e with
  | ipv6DefaultRoute | unreachableAddress | unreachableServer => rfl
  | wrongIpv6Length address =>
    show "IPv6 address " ++ toString address ++ " should use prefix length " ++ "64" = _
    rw [String.append_assoc]
    rfl
  | noAddress | severalIpv4Addresses =>
    -- No element is named here, and nothing stands behind it.
    show _ = _ ++ "" ++ ""
    rw [String.append_empty, String.append_empty]
    rfl

theorem failure_eq (e : InitialConfigurationError) :
    e.failure = ⟨.invalidConfiguration, e.rule.message e.element⟩ := by
  unfold failure Rule.message
  rw [detail_eq]

/-- A complaint is known by its rule and by the text of the element that it names. -/
theorem eq_of_rule_of_element {e e' : InitialConfigurationError} (hrule : e.rule = e'.rule)
    (helement : e.element = e'.element) : e = e' := by
  cases e with
  | noAddress =>
    cases e' with
    | noAddress => rfl
    | _ => cases hrule
  | ipv6DefaultRoute route =>
    cases e' with
    | ipv6DefaultRoute route' =>
      exact congrArg _ (Codec.injective_of_read_write IpPrefix.ofString_toString helement)
    | _ => cases hrule
  | unreachableAddress address =>
    cases e' with
    | unreachableAddress address' =>
      exact congrArg _ (Codec.injective_of_read_write LinkAddress.ofString_toString helement)
    | _ => cases hrule
  | unreachableServer server =>
    cases e' with
    | unreachableServer server' => exact congrArg _ (IpAddress.toString_injective helement)
    | _ => cases hrule
  | wrongIpv6Length address =>
    cases e' with
    | wrongIpv6Length address' =>
      exact congrArg _ (Codec.injective_of_read_write LinkAddress.ofString_toString helement)
    | _ => cases hrule
  | severalIpv4Addresses =>
    cases e' with
    | severalIpv4Addresses => rfl
    | _ => cases hrule

/-- No two complaints are reported by the same message. -/
theorem message_injective :
    Function.Injective fun e : InitialConfigurationError => e.failure.message := by
  intro e e' h
  dsimp only at h
  rw [failure_eq, failure_eq] at h
  obtain ⟨hrule, helement⟩ := Rule.message_inj h
  exact eq_of_rule_of_element hrule helement

end InitialConfigurationError

namespace InitialConfiguration

variable (c : InitialConfiguration)

/-- Some route of the family of an address agrees with it on all bits of the route. -/
def Reaches (a : IpAddress) : Prop :=
  ∃ r ∈ c.routes, a.isIpv4 = r.address.isIpv4 ∧
    ∀ i < r.length, a.leadingBit i = r.address.leadingBit i

/-- What a rule says of a configuration. -/
def Keeps : Rule → Prop
  | .someAddress => c.addresses ≠ []
  | .noIpv6DefaultRoute => ∀ r ∈ c.routes, ¬ (r.address.isIpv6 = true ∧ r.length = 0)
  | .addressesReached => ∀ a ∈ c.addresses, c.Reaches a.address
  | .serversReached => ∀ d ∈ c.dnsServers, c.Reaches d
  | .ipv6Lengths => ∀ a ∈ c.addresses, a.address.isIpv6 = true → a.length = 64
  | .oneIpv4Address =>
    c.addresses.Pairwise fun a b => ¬ (a.address.isIpv4 = true ∧ b.address.isIpv4 = true)

/-- The complaint about a broken rule. It names the first element of the list that breaks it. -/
inductive Complaint : Rule → InitialConfigurationError → Prop
  | noAddress : c.addresses = [] → Complaint .someAddress .noAddress
  | ipv6DefaultRoute {r : IpPrefix} :
    IsFirst (fun r => r.address.isIpv6 = true ∧ r.length = 0) c.routes r →
    Complaint .noIpv6DefaultRoute (.ipv6DefaultRoute r)
  | unreachableAddress {a : LinkAddress} :
    IsFirst (fun a => ¬ c.Reaches a.address) c.addresses a →
    Complaint .addressesReached (.unreachableAddress a)
  | unreachableServer {d : IpAddress} :
    IsFirst (fun d => ¬ c.Reaches d) c.dnsServers d →
    Complaint .serversReached (.unreachableServer d)
  | wrongIpv6Length {a : LinkAddress} :
    IsFirst (fun a => a.address.isIpv6 = true ∧ a.length ≠ 64) c.addresses a →
    Complaint .ipv6Lengths (.wrongIpv6Length a)
  | severalIpv4Addresses :
    ¬ c.addresses.Pairwise (fun a b => ¬ (a.address.isIpv4 = true ∧ b.address.isIpv4 = true)) →
    Complaint .oneIpv4Address .severalIpv4Addresses

/-! ### The check of a rule -/

/-- The complaint about a rule, if it is broken. -/
def complaint? : Rule → Option InitialConfigurationError
  | .someAddress => if c.addresses.isEmpty then some .noAddress else none
  | .noIpv6DefaultRoute => (c.routes.find? IpPrefix.isIpv6DefaultRoute).map .ipv6DefaultRoute
  | .addressesReached =>
    (c.addresses.find? fun a => !c.isDirectlyConnected a.address).map .unreachableAddress
  | .serversReached =>
    (c.dnsServers.find? fun d => !c.isDirectlyConnected d).map .unreachableServer
  | .ipv6Lengths =>
    (c.addresses.find? fun a => a.address.isIpv6 && a.length != autoconfigurationLength).map
      .wrongIpv6Length
  | .oneIpv4Address =>
    if 1 < (c.addresses.filter fun a => a.address.isIpv4).length then some .severalIpv4Addresses
    else none

/-- The rules are checked one after the other. -/
theorem firstError?_eq : c.firstError? = Rule.inOrder.findSome? c.complaint? := by
  unfold firstError? Rule.inOrder
  simp only [List.findSome?_cons, List.findSome?_nil, complaint?]
  by_cases hempty : c.addresses.isEmpty = true
  · simp only [hempty, if_true]
  · -- Each search is made where those before it have found nothing.
    simp only [hempty, Bool.false_eq_true, if_false]
    cases c.routes.find? IpPrefix.isIpv6DefaultRoute with
    | some route => rfl
    | none =>
      cases c.addresses.find? fun a => !c.isDirectlyConnected a.address with
      | some a => rfl
      | none =>
        cases c.dnsServers.find? fun d => !c.isDirectlyConnected d with
        | some d => rfl
        | none =>
          cases c.addresses.find? fun a =>
              a.address.isIpv6 && a.length != autoconfigurationLength with
          | some a => rfl
          | none =>
            by_cases hseveral : 1 < (c.addresses.filter fun a => a.address.isIpv4).length
            · simp only [Option.map_none, hseveral, if_true]
            · simp only [Option.map_none, hseveral, if_false]

theorem isDirectlyConnected_iff (a : IpAddress) :
    c.isDirectlyConnected a = true ↔ c.Reaches a := by
  unfold isDirectlyConnected Reaches
  rw [List.any_eq_true]
  simp only [IpPrefix.contains_iff]

theorem not_isDirectlyConnected_iff (a : IpAddress) :
    (!c.isDirectlyConnected a) = true ↔ ¬ c.Reaches a := by
  rw [← isDirectlyConnected_iff, Bool.not_eq_true', Bool.not_eq_true]

theorem isIpv6DefaultRoute_iff (r : IpPrefix) :
    r.isIpv6DefaultRoute = true ↔ r.address.isIpv6 = true ∧ r.length = 0 := by
  simp [IpPrefix.isIpv6DefaultRoute]

theorem wrongLength_iff (a : LinkAddress) :
    (a.address.isIpv6 && a.length != autoconfigurationLength) = true ↔
      a.address.isIpv6 = true ∧ a.length ≠ 64 := by
  simp [autoconfigurationLength]

/-- There is no complaint about a rule that is kept, and one about every other. -/
theorem complaint?_eq_none_iff (rule : Rule) : c.complaint? rule = none ↔ c.Keeps rule := by
  cases rule with
  | someAddress => simp [complaint?, Keeps]
  | noIpv6DefaultRoute => exact map_find?_eq_none_iff isIpv6DefaultRoute_iff _ c.routes
  | addressesReached =>
    unfold complaint? Keeps
    rw [map_find?_eq_none_iff fun a : LinkAddress => c.not_isDirectlyConnected_iff a.address]
    simp only [Classical.not_not]
  | serversReached =>
    unfold complaint? Keeps
    rw [map_find?_eq_none_iff c.not_isDirectlyConnected_iff]
    simp only [Classical.not_not]
  | ipv6Lengths =>
    unfold complaint? Keeps
    rw [map_find?_eq_none_iff wrongLength_iff]
    simp only [not_and, ne_eq, Classical.not_not]
  | oneIpv4Address =>
    unfold complaint? Keeps
    rw [← length_filter_le_one_iff fun a : LinkAddress => a.address.isIpv4]
    simp

/-- The complaint about a broken rule names the first element that breaks it. -/
theorem complaint?_eq_some_iff (rule : Rule) (e : InitialConfigurationError) :
    c.complaint? rule = some e ↔ c.Complaint rule e := by
  cases rule with
  | someAddress =>
    unfold complaint?
    constructor
    · intro h
      by_cases hempty : c.addresses.isEmpty = true
      · simp only [hempty, if_true] at h
        obtain rfl := Option.some.inj h
        exact .noAddress (List.isEmpty_iff.mp hempty)
      · simp [hempty] at h
    · intro h
      cases h with
      | noAddress hempty => simp [hempty]
  | noIpv6DefaultRoute =>
    unfold complaint?
    rw [map_find?_eq_some_iff isIpv6DefaultRoute_iff]
    constructor
    · rintro ⟨r, hr, rfl⟩
      exact .ipv6DefaultRoute hr
    · intro h
      cases h with
      | ipv6DefaultRoute hr => exact ⟨_, hr, rfl⟩
  | addressesReached =>
    unfold complaint?
    rw [map_find?_eq_some_iff fun a : LinkAddress => c.not_isDirectlyConnected_iff a.address]
    constructor
    · rintro ⟨a, ha, rfl⟩
      exact .unreachableAddress ha
    · intro h
      cases h with
      | unreachableAddress ha => exact ⟨_, ha, rfl⟩
  | serversReached =>
    unfold complaint?
    rw [map_find?_eq_some_iff c.not_isDirectlyConnected_iff]
    constructor
    · rintro ⟨d, hd, rfl⟩
      exact .unreachableServer hd
    · intro h
      cases h with
      | unreachableServer hd => exact ⟨_, hd, rfl⟩
  | ipv6Lengths =>
    unfold complaint?
    rw [map_find?_eq_some_iff wrongLength_iff]
    constructor
    · rintro ⟨a, ha, rfl⟩
      exact .wrongIpv6Length ha
    · intro h
      cases h with
      | wrongIpv6Length ha => exact ⟨_, ha, rfl⟩
  | oneIpv4Address =>
    unfold complaint?
    -- No element is named here; it is the number of the entries that counts.
    have hfew := length_filter_le_one_iff (fun a : LinkAddress => a.address.isIpv4) c.addresses
    constructor
    · intro h
      by_cases hseveral : 1 < (c.addresses.filter fun a => a.address.isIpv4).length
      · simp only [hseveral, if_true] at h
        obtain rfl := Option.some.inj h
        apply Complaint.severalIpv4Addresses
        rw [← hfew]
        omega
      · simp [hseveral] at h
    · intro h
      cases h with
      | severalIpv4Addresses hbroken =>
        rw [← hfew] at hbroken
        simp only [Nat.not_le.mp hbroken, if_true]

/-! ### The check as a whole -/

theorem firstError?_eq_none_iff : c.firstError? = none ↔ ∀ rule, c.Keeps rule := by
  rw [firstError?_eq, List.findSome?_eq_none_iff]
  simp only [complaint?_eq_none_iff]
  constructor
  · intro h rule
    exact h rule rule.mem_inOrder
  · intro h rule _
    exact h rule

theorem firstError?_eq_some_iff (e : InitialConfigurationError) :
    c.firstError? = some e ↔
      ∃ rule, IsFirst (fun rule => ¬ c.Keeps rule) Rule.inOrder rule ∧ c.Complaint rule e := by
  rw [firstError?_eq, List.findSome?_eq_some_iff]
  simp only [complaint?_eq_some_iff, complaint?_eq_none_iff]
  constructor
  · rintro ⟨before, rule, behind, hsplit, hcomplaint, hbefore⟩
    refine ⟨rule, ⟨before, behind, hsplit, ?_, ?_⟩, hcomplaint⟩
    · show ¬ c.Keeps rule
      -- There would be no complaint about a rule that is kept.
      rw [← complaint?_eq_none_iff, (c.complaint?_eq_some_iff rule e).mpr hcomplaint]
      nofun
    · intro earlier hearlier
      exact Classical.not_not.mpr (hbefore earlier hearlier)
  · rintro ⟨rule, ⟨before, behind, hsplit, -, hbefore⟩, hcomplaint⟩
    refine ⟨before, rule, behind, hsplit, hcomplaint, ?_⟩
    intro earlier hearlier
    exact Classical.not_not.mp (hbefore earlier hearlier)

theorem validate_eq_ok_iff : c.validate = .ok () ↔ ∀ rule, c.Keeps rule := by
  rw [← firstError?_eq_none_iff]
  unfold validate
  cases c.firstError? with
  | none => simp
  | some e => simp

theorem validate_eq_error_iff (e : InitialConfigurationError) :
    c.validate = .error e ↔
      ∃ rule, IsFirst (fun rule => ¬ c.Keeps rule) Rule.inOrder rule ∧ c.Complaint rule e := by
  rw [← firstError?_eq_some_iff]
  unfold validate
  cases c.firstError? with
  | none => simp
  | some e' => simp

theorem Complaint.rule_eq {c : InitialConfiguration} {rule : Rule} {e : InitialConfigurationError}
    (h : c.Complaint rule e) : e.rule = rule := by
  cases h <;> rfl

/-- The failure of a check has the message about the first broken rule, with the text of the first
element of the list that breaks it. -/
theorem mapError_validate_eq_error_iff (f : Failure) :
    c.validate.mapError InitialConfigurationError.failure = .error f ↔
      ∃ rule e, IsFirst (fun rule => ¬ c.Keeps rule) Rule.inOrder rule ∧ c.Complaint rule e ∧
        f = ⟨.invalidConfiguration, rule.message e.element⟩ := by
  constructor
  · intro h
    cases hvalidate : c.validate with
    | ok _ =>
      rw [hvalidate] at h
      cases h
    | error e =>
      rw [hvalidate] at h
      obtain ⟨rule, hfirst, hcomplaint⟩ := (c.validate_eq_error_iff e).mp hvalidate
      refine ⟨rule, e, hfirst, hcomplaint, ?_⟩
      rw [← hcomplaint.rule_eq, ← InitialConfigurationError.failure_eq]
      exact (Except.error.inj h).symm
  · intro h
    obtain ⟨rule, e, hfirst, hcomplaint, hf⟩ := h
    rw [(c.validate_eq_error_iff e).mpr ⟨rule, hfirst, hcomplaint⟩, hf, ← hcomplaint.rule_eq,
      ← InitialConfigurationError.failure_eq]
    rfl

/-- The check decides the six rules. It accepts a configuration that keeps them all, and reports of
any other the first rule that is broken, naming the first element of the list that breaks it. What
is reported is a failure of the configuration, with the words of that rule around the text of that
element, and the complaint can be told from its message. A provisioning configuration is checked by
its initial configuration, and accepted if it has none. -/
theorem validate_reports_first_broken_rule :
    (c.validate = .ok () ↔ ∀ rule, c.Keeps rule) ∧
    (∀ e, c.validate = .error e ↔
      ∃ rule, IsFirst (fun rule => ¬ c.Keeps rule) Rule.inOrder rule ∧ c.Complaint rule e) ∧
    (∀ f : Failure, c.validate.mapError InitialConfigurationError.failure = .error f ↔
      ∃ rule e, IsFirst (fun rule => ¬ c.Keeps rule) Rule.inOrder rule ∧ c.Complaint rule e ∧
        f = ⟨.invalidConfiguration, rule.message e.element⟩) ∧
    (∀ e e' : InitialConfigurationError, e.failure.message = e'.failure.message ↔ e = e') ∧
    ∀ whole : Configuration,
      ({ whole with initial? := some c } : Configuration).validate = c.validate ∧
      ({ whole with initial? := none } : Configuration).validate = .ok () := by
  refine ⟨c.validate_eq_ok_iff, c.validate_eq_error_iff, c.mapError_validate_eq_error_iff, ?_, ?_⟩
  · intro e e'
    exact InitialConfigurationError.message_injective.eq_iff
  · intro whole
    exact ⟨rfl, rfl⟩

-- Of two addresses that no route reaches the first is named, and nothing is said of the server.
example :
    let c : InitialConfiguration := {
      addresses := [⟨.v4 0xc0000201, 24, by decide⟩, ⟨.v4 0xc0000202, 24, by decide⟩]
      routes := []
      dnsServers := [.v4 0xc0000235] }
    c.firstError?.map (fun e => e.failure.message) =
      some ("Invalid initial configuration: IP address 192.0.2.1/24 is not covered by any " ++
        "directly connected route") := by
  decide

end InitialConfiguration

end Provisioning
