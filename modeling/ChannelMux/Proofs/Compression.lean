import ChannelMux.Deflate.Terms
import ChannelMux.Proofs.Elements
import ChannelMux.Proofs.Fields
import Mathlib.Tactic.IntervalCases

/-!
# Compression: both sides agree on the terms

An offer and a response leave out a window that has the default size, and the two sides fill the
gap differently: the server takes the default, and the client takes what it offered itself.  They
agree all the same (`Terms.accept_grant`).  A server grants no window that is larger than the one
offered, so it leaves a window out only if the client offered the default size, or none.
-/

namespace ChannelMux.Deflate

open Text

theorem trim_extensionName : trim extensionName.toList = extensionName.toList := by rfl

theorem free_extensionName {c : Char} (hc : c ∈ extensionName.toList) : c ≠ ',' ∧ c ≠ ';' := by
  have hall : extensionName.toList.all (fun c => c ≠ ',' ∧ c ≠ ';') = true := by rfl
  exact of_decide_eq_true (List.all_eq_true.mp hall c hc)

/-! ## Single parameters -/

namespace Parameter

theorem trim_name (p : Parameter) : trim p.name.toList = p.name.toList := by cases p <;> rfl

theorem free_name (p : Parameter) {c : Char} (hc : c ∈ p.name.toList) :
    c ≠ ',' ∧ c ≠ ';' ∧ c ≠ '=' := by
  have hall : p.name.toList.all (fun c => c ≠ ',' ∧ c ≠ ';' ∧ c ≠ '=') = true := by
    cases p <;> rfl
  exact of_decide_eq_true (List.all_eq_true.mp hall c hc)

theorem writable_flag (p : Parameter) : (⟨p.name, none⟩ : Extension.Param).Writable where
  name_free _ hc := p.free_name hc
  name_trimmed := p.trim_name
  named _ := by cases p <;> decide
  value_free := nofun
  value_trimmed := nofun
  value_unquoted := nofun

/-- A size is written with digits only, and it is read as it was. -/
theorem bits_toString {n : Nat} (hlow : minBits ≤ n) (hhigh : n ≤ maxBits) :
    (toString n).toList.all (fun c => c ≠ ',' ∧ c ≠ ';' ∧ isTextChar c = true) = true ∧
      trim (toString n).toList = (toString n).toList ∧
      Extension.unquote (toString n).toList = (toString n).toList ∧
      bitsOfText (toString n) = .ok n := by
  change 8 ≤ n at hlow
  change n ≤ 15 at hhigh
  interval_cases n <;> exact ⟨rfl, rfl, rfl, rfl⟩

theorem free_toString {n : Nat} (hlow : minBits ≤ n) (hhigh : n ≤ maxBits) {c : Char}
    (hc : c ∈ (toString n).toList) : c ≠ ',' ∧ c ≠ ';' ∧ isTextChar c = true :=
  of_decide_eq_true (List.all_eq_true.mp (bits_toString hlow hhigh).1 c hc)

theorem writable_bits (p : Parameter) {n : Nat} (hlow : minBits ≤ n) (hhigh : n ≤ maxBits) :
    (⟨p.name, some (toString n)⟩ : Extension.Param).Writable := by
  obtain ⟨-, htrimmed, hunquoted, -⟩ := bits_toString hlow hhigh
  exact
    { name_free := p.writable_flag.name_free
      name_trimmed := p.writable_flag.name_trimmed
      named := nofun
      value_free := by
        rintro _ ⟨rfl⟩ c hc
        have hfree := free_toString hlow hhigh hc
        exact ⟨hfree.1, hfree.2.1⟩
      value_trimmed := by rintro _ ⟨rfl⟩; exact htrimmed
      value_unquoted := by rintro _ ⟨rfl⟩; exact hunquoted }

end Parameter

namespace Params

variable {ps : Params} {text : String} {n : Nat}

theorem add_serverBits (h : ps.serverBits = none) (hread : bitsOfText text = .ok n) :
    ps.add ⟨Parameter.serverBits.name, some text⟩ = .ok { ps with serverBits := some n } := by
  rw [add, show Parameter.ofName? Parameter.serverBits.name = some .serverBits by decide]
  dsimp only
  rw [h]
  dsimp only
  rw [hread]
  rfl

theorem add_clientBits (h : ps.clientWindow = .absent) (hread : bitsOfText text = .ok n) :
    ps.add ⟨Parameter.clientBits.name, some text⟩ = .ok { ps with clientWindow := .bits n } := by
  rw [add, show Parameter.ofName? Parameter.clientBits.name = some .clientBits by decide]
  dsimp only
  rw [h]
  dsimp only
  rw [hread]
  rfl

end Params

namespace Terms

variable {t own : Terms} {ps : Params} {n : Nat} {p : Extension.Param}

/-- The windows have sizes that can be stated. -/
structure InRange (t : Terms) : Prop where
  server_low : minBits ≤ t.serverBits
  server_high : t.serverBits ≤ maxBits
  client_low : minBits ≤ t.clientBits
  client_high : t.clientBits ≤ maxBits

/-- A size that is stated only if it is not the default. -/
def statedBits (n : Nat) : Option Nat := if n < maxBits then some n else none

/-! ## What is written -/

/-- A parameter that an element of these terms may hold. -/
inductive States (t : Terms) : Extension.Param → Prop where
  | flag (p : Parameter) : States t ⟨p.name, none⟩
  | serverBits : States t ⟨Parameter.serverBits.name, some (toString t.serverBits)⟩
  | clientBits : States t ⟨Parameter.clientBits.name, some (toString t.clientBits)⟩

theorem states_flagParam {q : Parameter} {set : Bool} (h : p ∈ flagParam q set) : t.States p := by
  rw [flagParam] at h
  split at h
  · exact List.mem_singleton.mp h ▸ .flag q
  · cases h

theorem eq_of_mem_bitsParam {q : Parameter} (h : p ∈ bitsParam q n) :
    p = ⟨q.name, some (toString n)⟩ := by
  rw [bitsParam] at h
  split at h
  · exact List.mem_singleton.mp h
  · cases h

theorem states_sharedParams (h : p ∈ t.sharedParams) : t.States p := by
  rw [sharedParams, List.mem_append, List.mem_append] at h
  rcases h with (h | h) | h
  · exact states_flagParam h
  · exact states_flagParam h
  · exact eq_of_mem_bitsParam h ▸ .serverBits

theorem states_offer (h : p ∈ t.offer.params) : t.States p := by
  rcases List.mem_append.mp h with h | h
  · exact states_sharedParams h
  · split at h
    · exact eq_of_mem_bitsParam h ▸ .clientBits
    · exact List.mem_singleton.mp h ▸ .flag .clientBits

theorem states_response (h : p ∈ t.response.params) : t.States p := by
  rcases List.mem_append.mp h with h | h
  · exact states_sharedParams h
  · exact eq_of_mem_bitsParam h ▸ .clientBits

namespace InRange

theorem writable (h : t.InRange) (hp : t.States p) : p.Writable := by
  cases hp with
  | flag q => exact q.writable_flag
  | serverBits => exact Parameter.writable_bits _ h.server_low h.server_high
  | clientBits => exact Parameter.writable_bits _ h.client_low h.client_high

/-- An element of these terms is read as it was written. -/
theorem writable_element (h : t.InRange) {params : List Extension.Param}
    (hparams : ∀ p ∈ params, t.States p) : (⟨extensionName, params⟩ : Extension).Writable where
  name_free _ hc := free_extensionName hc
  name_trimmed := trim_extensionName
  named := by change extensionName ≠ ""; decide
  params p hp := h.writable (hparams p hp)

/-- An element of these terms consists of visible ASCII and spaces. -/
theorem isPlainText_render (h : t.InRange) {params : List Extension.Param}
    (hparams : ∀ p ∈ params, t.States p) :
    isPlainText (⟨extensionName, params⟩ : Extension).render = true := by
  have hname (q : Parameter) : q.name.toList.all isTextChar = true := by cases q <;> rfl
  have hparam {p : Extension.Param} (hp : t.States p) :
      ∀ c ∈ p.render.toList, isTextChar c = true := by
    intro c hc
    rcases Extension.Param.mem_render hc with hc | rfl | ⟨v, hv, hc⟩
    · cases hp <;> exact List.all_eq_true.mp (hname _) c hc
    · decide
    · cases hp with
      | flag => cases hv
      | serverBits =>
        obtain rfl := Option.some.inj hv
        exact (Parameter.free_toString h.server_low h.server_high hc).2.2
      | clientBits =>
        obtain rfl := Option.some.inj hv
        exact (Parameter.free_toString h.client_low h.client_high hc).2.2
  refine List.all_eq_true.mpr fun c hc => ?_
  rcases Extension.mem_render hc with rfl | rfl | hc | ⟨p, hp, hc⟩
  · decide
  · decide
  · have helement : extensionName.toList.all isTextChar = true := by rfl
    exact List.all_eq_true.mp helement c hc
  · exact hparam (hparams p hp) c hc

end InRange

/-! ## What is read -/

/-- The parameters that an offer of these terms states. -/
def offerParams (t : Terms) : Params where
  serverNoTakeover := t.serverNoTakeover
  clientNoTakeover := t.clientNoTakeover
  serverBits := statedBits t.serverBits
  clientWindow := (statedBits t.clientBits).elim .bare .bits

/-- The parameters that a response of these terms states. -/
def responseParams (t : Terms) : Params where
  serverNoTakeover := t.serverNoTakeover
  clientNoTakeover := t.clientNoTakeover
  serverBits := statedBits t.serverBits
  clientWindow := (statedBits t.clientBits).elim .absent .bits

theorem foldlM_serverFlag (h : ps.serverNoTakeover = false) (set : Bool) :
    (flagParam .serverNoTakeover set).foldlM Params.add ps =
      .ok { ps with serverNoTakeover := set } := by
  obtain ⟨_, _, _, _⟩ := ps
  subst h
  cases set <;> rfl

theorem foldlM_clientFlag (h : ps.clientNoTakeover = false) (set : Bool) :
    (flagParam .clientNoTakeover set).foldlM Params.add ps =
      .ok { ps with clientNoTakeover := set } := by
  obtain ⟨_, _, _, _⟩ := ps
  subst h
  cases set <;> rfl

theorem foldlM_serverBits (h : ps.serverBits = none) (hlow : minBits ≤ n) (hhigh : n ≤ maxBits) :
    (bitsParam .serverBits n).foldlM Params.add ps =
      .ok { ps with serverBits := statedBits n } := by
  obtain ⟨_, _, _, _⟩ := ps
  subst h
  rw [bitsParam, statedBits]
  split
  · rw [List.foldlM_cons, Params.add_serverBits rfl (Parameter.bits_toString hlow hhigh).2.2.2]
    rfl
  · rfl

theorem foldlM_clientBits (h : ps.clientWindow = .absent) (hlow : minBits ≤ n)
    (hhigh : n ≤ maxBits) : (bitsParam .clientBits n).foldlM Params.add ps =
      .ok { ps with clientWindow := (statedBits n).elim .absent .bits } := by
  obtain ⟨_, _, _, _⟩ := ps
  subst h
  rw [bitsParam, statedBits]
  split
  · rw [List.foldlM_cons, Params.add_clientBits rfl (Parameter.bits_toString hlow hhigh).2.2.2]
    rfl
  · rfl

/-- The parameters that offers and responses share. -/
theorem foldlM_sharedParams (h : t.InRange) : t.sharedParams.foldlM Params.add {} =
    .ok { t.responseParams with clientWindow := .absent } := by
  rw [sharedParams, List.foldlM_append, List.foldlM_append, foldlM_serverFlag rfl]
  change (flagParam .clientNoTakeover t.clientNoTakeover).foldlM Params.add
    { serverNoTakeover := t.serverNoTakeover } >>= _ = _
  rw [foldlM_clientFlag rfl]
  change (bitsParam .serverBits t.serverBits).foldlM Params.add _ = _
  rw [foldlM_serverBits rfl h.server_low h.server_high]
  rfl

theorem ofList_response (h : t.InRange) :
    Params.ofList t.response.params = .ok t.responseParams := by
  rw [Params.ofList, response, List.foldlM_append, foldlM_sharedParams h]
  change (bitsParam .clientBits t.clientBits).foldlM Params.add _ = _
  rw [foldlM_clientBits rfl h.client_low h.client_high]
  rfl

theorem ofList_offer (h : t.InRange) : Params.ofList t.offer.params = .ok t.offerParams := by
  rw [Params.ofList, offer, List.foldlM_append, foldlM_sharedParams h]
  change List.foldlM Params.add _ _ = _
  have hstated : statedBits t.clientBits = if t.clientBits < maxBits then some t.clientBits
      else none := rfl
  split
  next hlt =>
    rw [if_pos hlt] at hstated
    rw [foldlM_clientBits rfl h.client_low h.client_high, offerParams, hstated]
    rfl
  next hnot =>
    rw [if_neg hnot] at hstated
    rw [offerParams, hstated]
    rfl

/-! ## Agreement -/

theorem negotiate_offerHeader (own : Terms) (h : t.InRange) :
    own.negotiate t.offerHeader = some (own.grant t.offerParams) := by
  have hoffered : offered? t.offer = some t.offerParams := by
    rw [offered?, ofList_offer h]
    exact if_pos (sameIgnoringCase_self extensionName)
  have hlist : Extension.parseList t.offerHeader = [t.offer] :=
    (h.writable_element fun _ => states_offer).parseList_render
  rw [negotiate, hlist, List.filterMap_cons, hoffered]
  rfl

theorem accept_responseHeader (offered : Terms) (h : t.InRange) :
    offered.accept t.responseHeader = do
      let serverBits ← offered.acceptServerBits t.responseParams.serverBits
      let clientBits ← offered.acceptClientBits t.responseParams.clientWindow
      return { serverBits, clientBits, serverNoTakeover := t.serverNoTakeover,
               clientNoTakeover := t.clientNoTakeover || offered.clientNoTakeover } := by
  have hlist : Extension.parseList t.responseHeader = [t.response] :=
    (h.writable_element fun _ => states_response).parseList_render
  rw [accept, hlist]
  dsimp only
  rw [if_neg (by simp [response]), ofList_response h]
  rfl

/-- The server grants the smaller windows, and forgets a window if either side wishes it. -/
theorem grant_offerParams (hown : own.InRange) (h : t.InRange) :
    own.grant t.offerParams = {
      serverBits := min t.serverBits own.serverBits
      clientBits := min t.clientBits own.clientBits
      serverNoTakeover := t.serverNoTakeover || own.serverNoTakeover
      clientNoTakeover := t.clientNoTakeover || own.clientNoTakeover } := by
  have hserver : (own.grant t.offerParams).serverBits = min t.serverBits own.serverBits := by
    have hmost := hown.server_high
    have hhigh := h.server_high
    simp only [grant, offerParams, statedBits]
    split
    next n hn =>
      split at hn
      · rw [Option.some.inj hn]
      · cases hn
    next hn =>
      split at hn
      · cases hn
      · omega
  have hclient : (own.grant t.offerParams).clientBits = min t.clientBits own.clientBits := by
    have hhigh := h.client_high
    by_cases hlt : t.clientBits < maxBits
    · simp only [grant, offerParams, statedBits, if_pos hlt, Option.elim_some]
    · simp only [grant, offerParams, statedBits, if_neg hlt, Option.elim_none]
      omega
  rw [← hserver, ← hclient]
  rfl

theorem InRange.grant (hown : own.InRange) (h : t.InRange) :
    (own.grant t.offerParams).InRange := by
  rw [grant_offerParams hown h]
  exact
    { server_low := Nat.le_min.mpr ⟨h.server_low, hown.server_low⟩
      server_high := Nat.le_trans (Nat.min_le_left ..) h.server_high
      client_low := Nat.le_min.mpr ⟨h.client_low, hown.client_low⟩
      client_high := Nat.le_trans (Nat.min_le_left ..) h.client_high }

/-- A server that leaves out its window uses the default one, so the client must have offered it. -/
theorem acceptServerBits_statedBits (hle : n ≤ t.serverBits) (h : t.InRange) :
    t.acceptServerBits (statedBits n) = .ok n := by
  have hhigh := h.server_high
  unfold statedBits
  split
  · rw [acceptServerBits, if_neg (Nat.not_lt.mpr hle)]
  · rw [acceptServerBits, if_neg (by omega)]
    congr 1
    omega

/-- A server that leaves out the client's window allows the default one, which is what the client
must have offered. -/
theorem acceptClientBits_statedBits (hle : n ≤ t.clientBits) (h : t.InRange) :
    t.acceptClientBits ((statedBits n).elim .absent .bits) = .ok n := by
  have hhigh := h.client_high
  unfold statedBits
  split
  · rfl
  · change Except.ok t.clientBits = _
    congr 1
    omega

/-- A client accepts what is granted of its offer, and reads it as it was meant. -/
theorem accept_grant (hown : own.InRange) (h : t.InRange) :
    t.accept (own.grant t.offerParams).responseHeader = .ok (own.grant t.offerParams) := by
  have hgrant := grant_offerParams hown h
  have hserver : (own.grant t.offerParams).serverBits ≤ t.serverBits := by
    rw [hgrant]
    exact Nat.min_le_left ..
  have hclient : (own.grant t.offerParams).clientBits ≤ t.clientBits := by
    rw [hgrant]
    exact Nat.min_le_left ..
  have hforget : ((own.grant t.offerParams).clientNoTakeover || t.clientNoTakeover) =
      (own.grant t.offerParams).clientNoTakeover := by
    rw [hgrant]
    cases t.clientNoTakeover <;> simp
  rw [accept_responseHeader t (hown.grant h), responseParams]
  dsimp only
  rw [acceptServerBits_statedBits hserver h, acceptClientBits_statedBits hclient h, hforget]
  rfl

end Terms

end ChannelMux.Deflate
