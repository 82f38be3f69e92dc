import Provisioning.Proofs.Configuration.Schema
import Provisioning.Proofs.Hop
import Provisioning.Proofs.Parcel.Schema
import Provisioning.Proofs.Respelling

/-! # Texts of configurations

    A configuration holds six kinds of text that are its user's own: the display name, the search
    domains, the name and the address text of a scanned network, and the key and the cluster of
    the link layer. A respelling of a configuration changes these and nothing else, and so it does
    in its file and, through its parcel, in its stable form.
-/

namespace Provisioning

variable (f : String → String)

/-! ### Parts -/

/-- The texts of an option that are the given ones of what is there. -/
def textsOf {α : Type} (texts : α → List String) (x? : Option α) : List String :=
  x?.toList.flatMap texts

namespace StaticIpConfiguration

/-- The texts of a static configuration. -/
def texts (c : StaticIpConfiguration) : List String :=
  c.domains?.toList

/-- The static configuration with its texts respelled. -/
def mapTexts (c : StaticIpConfiguration) : StaticIpConfiguration :=
  { c with domains? := c.domains?.map f }

end StaticIpConfiguration

namespace ScanResult

/-- The texts of a scan result. -/
def texts (r : ScanResult) : List String :=
  r.ssid :: r.bssid?.toList

/-- The scan result with its texts respelled. -/
def mapTexts (r : ScanResult) : ScanResult :=
  { r with ssid := f r.ssid, bssid? := r.bssid?.map f }

end ScanResult

namespace Layer2Information

/-- The texts of link layer information. -/
def texts (i : Layer2Information) : List String :=
  i.key?.toList ++ i.cluster?.toList

/-- The link layer information with its texts respelled. -/
def mapTexts (i : Layer2Information) : Layer2Information :=
  { i with key? := i.key?.map f, cluster? := i.cluster?.map f }

end Layer2Information

/-- The scan result with its texts respelled. -/
def ScanResultParcel.mapTexts (r : ScanResultParcel) : ScanResultParcel :=
  { r with ssid := f r.ssid, bssid? := r.bssid?.map f }

/-- The link layer information with its texts respelled. -/
def Layer2Parcel.mapTexts (i : Layer2Parcel) : Layer2Parcel :=
  { i with key? := i.key?.map f, cluster? := i.cluster?.map f }

/-! ### The whole -/

namespace Configuration

/-- The texts of a configuration: display name, search domains, SSID and BSSID text, key and
cluster. -/
def texts (c : Configuration) : List String :=
  c.displayName?.toList ++ textsOf StaticIpConfiguration.texts c.staticIp? ++
    textsOf ScanResult.texts c.scanResult? ++ textsOf Layer2Information.texts c.layer2?

/-- The configuration with its texts respelled. -/
def mapTexts (c : Configuration) : Configuration :=
  { c with
    displayName? := c.displayName?.map f
    staticIp? := c.staticIp?.map (StaticIpConfiguration.mapTexts f)
    scanResult? := c.scanResult?.map (ScanResult.mapTexts f)
    layer2? := c.layer2?.map (Layer2Information.mapTexts f) }

end Configuration

/-- The parcel with its texts respelled. -/
def Parcel.mapTexts (p : Parcel) : Parcel :=
  { p with
    displayName? := p.displayName?.map f
    staticIp? := p.staticIp?.map (StaticIpConfiguration.mapTexts f)
    scanResult? := p.scanResult?.map (ScanResultParcel.mapTexts f)
    layer2? := p.layer2?.map (Layer2Parcel.mapTexts f) }

/-! ### Respelled data -/

section

variable [Respelling f]

attribute [local simp] ApfCapabilities.schema in
instance : ApfCapabilities.schema.Steady f where

attribute [local simp] Network.schema in
instance : Network.schema.Steady f where

attribute [local simp] DhcpOption.schema in
instance : DhcpOption.schema.Steady f where

attribute [local simp] InformationElement.schema in
instance : InformationElement.schema.Steady f where

attribute [local simp] InitialConfiguration.schema in
instance : InitialConfiguration.schema.Steady f where

instance : StaticIpConfiguration.schema.Respells f (StaticIpConfiguration.mapTexts f) where

instance : Layer2Information.schema.Respells f (Layer2Information.mapTexts f) where

instance : ScanResult.schema.Respells f (ScanResult.mapTexts f) where

instance : Configuration.schema.Respells f (Configuration.mapTexts f) where

attribute [local simp] InitialParcel.schema in
instance : InitialParcel.schema.Steady f where

attribute [local simp] InformationElementParcel.schema in
instance : InformationElementParcel.schema.Steady f where

instance : Layer2Parcel.schema.Respells f (Layer2Parcel.mapTexts f) where

instance : ScanResultParcel.schema.Respells f (ScanResultParcel.mapTexts f) where

instance : Parcel.schema.Respells f (Parcel.mapTexts f) where

end

/-! ### Respelled configurations -/

variable {f}

section

variable {α : Type} {texts : α → List String} {g : α → α}

theorem textsOf_map (h : ∀ x, texts (g x) = (texts x).map f) (x? : Option α) :
    textsOf texts (x?.map g) = (textsOf texts x?).map f := by
  cases x? with
  | none => rfl
  | some x => simp [textsOf, h]

theorem map_eq_self_of_textsOf (h : ∀ x, (∀ t ∈ texts x, f t = t) → g x = x) {x? : Option α}
    (hx : ∀ t ∈ textsOf texts x?, f t = t) : x?.map g = x? := by
  cases x? with
  | none => rfl
  | some x =>
    refine congrArg some (h x ?_)
    simpa [textsOf] using hx

end

theorem map_eq_self_of_toList {x? : Option String} (h : ∀ t ∈ x?.toList, f t = t) :
    x?.map f = x? := by
  cases x? with
  | none => rfl
  | some x => exact congrArg some (h x (by simp))

namespace Configuration

/-- The texts of a respelled configuration are its respelled texts. -/
theorem texts_mapTexts (c : Configuration) : (c.mapTexts f).texts = c.texts.map f := by
  have hstatic : ∀ x, (StaticIpConfiguration.mapTexts f x).texts = x.texts.map f :=
    fun _ => Option.toList_map
  have hscan : ∀ x, (ScanResult.mapTexts f x).texts = x.texts.map f :=
    fun x => congrArg (f x.ssid :: ·) Option.toList_map
  have hlayer2 : ∀ x, (Layer2Information.mapTexts f x).texts = x.texts.map f := by
    intro x
    simp only [Layer2Information.texts, Layer2Information.mapTexts, Option.toList_map,
      List.map_append]
  unfold texts mapTexts
  simp only [textsOf_map hstatic, textsOf_map hscan, textsOf_map hlayer2, Option.toList_map,
    List.map_append]

/-- If no text is spelled otherwise the configuration stays. -/
theorem mapTexts_eq_self {c : Configuration} (h : ∀ t ∈ c.texts, f t = t) : c.mapTexts f = c := by
  -- The texts are those of four members, of which each stays.
  unfold texts at h
  simp only [List.forall_mem_append] at h
  obtain ⟨⟨⟨hname, hstatic⟩, hscan⟩, hlayer2⟩ := h
  have hname := map_eq_self_of_toList hname
  have hstatic : c.staticIp?.map (StaticIpConfiguration.mapTexts f) = c.staticIp? := by
    refine map_eq_self_of_textsOf ?_ hstatic
    intro x hx
    simp [StaticIpConfiguration.mapTexts, map_eq_self_of_toList hx]
  have hscan : c.scanResult?.map (ScanResult.mapTexts f) = c.scanResult? := by
    refine map_eq_self_of_textsOf ?_ hscan
    intro x hx
    obtain ⟨hssid, hbssid⟩ := List.forall_mem_cons.mp hx
    simp [ScanResult.mapTexts, hssid, map_eq_self_of_toList hbssid]
  have hlayer2 : c.layer2?.map (Layer2Information.mapTexts f) = c.layer2? := by
    refine map_eq_self_of_textsOf ?_ hlayer2
    intro x hx
    obtain ⟨hkey, hcluster⟩ := List.forall_mem_append.mp hx
    simp [Layer2Information.mapTexts, map_eq_self_of_toList hkey, map_eq_self_of_toList hcluster]
  unfold mapTexts
  simp only [hname, hstatic, hscan, hlayer2]

end Configuration

/-- A respelled parcel is received as the respelled configuration. -/
theorem Parcel.toConfiguration_mapTexts (p : Parcel) (version : UInt32) (k : WireContract) :
    (p.mapTexts f).toConfiguration version k = (p.toConfiguration version k).mapTexts f := by
  have hscan : (p.scanResult?.map (ScanResultParcel.mapTexts f)).map ScanResult.ofParcel =
      (p.scanResult?.map ScanResult.ofParcel).map (ScanResult.mapTexts f) := by
    cases p.scanResult? <;> rfl
  have hlayer2 : (p.layer2?.map (Layer2Parcel.mapTexts f)).map Layer2Information.ofParcel =
      (p.layer2?.map Layer2Information.ofParcel).map (Layer2Information.mapTexts f) := by
    cases p.layer2? <;> rfl
  unfold toConfiguration mapTexts Configuration.mapTexts
  simp only [hscan, hlayer2]
  rfl

end Provisioning
