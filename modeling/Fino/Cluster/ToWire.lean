import Fino.Cluster.Content
import Fino.Protobuf.RoundTrip
import Mathlib.Data.List.TakeWhile

/-!
# Which messages are encoded

Each step of `toWire` succeeds exactly if the object says something of its kind, and then builds the
object for the wire. So a message is encoded as what it says (`toWire_of_saidBy`), and every message
that is encoded says something (`saidBy_of_toWire`).
-/

namespace Fino.Cluster.Codec

open Lib List Except Lib.Outcome Protobuf MessageKind

variable {key s : String} {id : Value}

lemma parseHandleId_eq_ok : parseHandleId id key = .ok s ↔ id = .string s ∧ IsHandle s := by
  cases id with
  | string t =>
    simp only [parseHandleId, eatWhile, span_eq_takeWhile_dropWhile, ite_error_eq_ok,
      not_or, ne_eq, not_not, ok.injEq, Value.string.injEq]
    constructor
    · rintro ⟨⟨htake, hdrop⟩, rfl⟩
      have hall := dropWhile_eq_nil_iff.mp hdrop
      exact ⟨rfl, fun hnil => htake (by rw [hnil, takeWhile_nil]), hall⟩
    · rintro ⟨rfl, hne, hall⟩
      refine ⟨⟨?_, dropWhile_eq_nil_iff.mpr hall⟩, rfl⟩
      rwa [takeWhile_eq_self_iff.mpr hall]
  | _ =>
    simp [parseHandleId]

lemma isIdCode_slash : isIdCode 47 = false := by decide

lemma parseNodeId_eq_ok : parseNodeId id = .ok s ↔ id = .string s ∧ IsHandle s := by
  simp only [parseNodeId, bind_eq_ok, parseHandleId_eq_ok, ite_error_eq_ok, ok.injEq]
  constructor
  · rintro ⟨_, h, -, rfl⟩
    exact h
  · rintro ⟨rfl, h⟩
    refine ⟨s, ⟨rfl, h⟩, fun hslash => ?_, rfl⟩
    exact Bool.false_ne_true (isIdCode_slash.symm.trans (h.2 _ hslash))

lemma parseClusterId_eq_ok : parseClusterId id key = .ok s ↔ id = .string s ∧ IsClusterId s := by
  cases id with
  | string t =>
    simp only [parseClusterId, eatWhile, span_eq_takeWhile_dropWhile, ite_error_eq_ok,
      not_or, ne_eq, not_not, ok.injEq, Value.string.injEq]
    constructor
    · rintro ⟨⟨hnode, hslash⟩, ⟨hpart, hrest⟩, rfl⟩
      obtain ⟨part, hdrop⟩ := List.head?_eq_some_iff.mp hslash
      rw [hdrop, tail_cons] at hpart hrest
      have hall := dropWhile_eq_nil_iff.mp hrest
      refine ⟨rfl, _, part, ?_, hnode, fun hnil => hpart (by rw [hnil, takeWhile_nil]),
        fun c hc => ?_, fun c hc => ?_⟩
      · rw [← hdrop, takeWhile_append_dropWhile]
      · have hc := mem_takeWhile_imp hc
        exact hc
      · have hc := hall c hc
        simp only [decide_eq_true_eq] at hc
        exact hc.imp_right fun hcode => Char.toNat_inj.mp hcode
    · rintro ⟨rfl, node, part, hs, hnode, hpart, hid, hlocal⟩
      have hall : ∀ c ∈ part, decide (isIdCode c.toNat ∨ c.toNat = 47) := by
        intro c hc
        simp only [decide_eq_true_eq]
        exact (hlocal c hc).imp_right fun hslash => by rw [hslash]; rfl
      have htake : (node ++ '/' :: part).takeWhile (fun c => isIdCode c.toNat) = node := by
        rw [takeWhile_append_of_pos hid]
        simp [isIdCode_slash]
      have hdrop : (node ++ '/' :: part).dropWhile (fun c => isIdCode c.toNat) = '/' :: part := by
        rw [dropWhile_append_of_pos hid]
        simp [isIdCode_slash]
      rw [hs, htake, hdrop, List.head?_cons, tail_cons,
        takeWhile_eq_self_iff.mpr hall, dropWhile_eq_nil_iff.mpr hall]
      exact ⟨⟨hnode, rfl⟩, ⟨hpart, rfl⟩, rfl⟩
  | _ =>
    simp [parseClusterId]

/-! ## Numbers -/

variable {obj : Value} {x : Double}

lemma requireString_eq_ok : requireString obj key = .ok s ↔ obj.get key = .string s := by
  unfold requireString
  cases obj.get key <;> simp

lemma requireBoolean_eq_ok {b : Bool} :
    requireBoolean obj key = .ok b ↔ obj.get key = .bool b := by
  unfold requireBoolean
  cases obj.get key <;> simp

lemma requireFiniteNumber_eq_ok :
    requireFiniteNumber obj key = .ok x ↔ obj.get key = .number x ∧ x.isFinite := by
  unfold requireFiniteNumber
  cases obj.get key with
  | number y =>
    simp only [ite_error_eq_ok, not_not, ok.injEq, Value.number.injEq]
    constructor
    · rintro ⟨hy, rfl⟩
      exact ⟨rfl, hy⟩
    · rintro ⟨rfl, hy⟩
      exact ⟨hy, rfl⟩
  | _ => simp

variable {allowZero : Bool}

lemma requireSequence_eq_ok :
    requireSequence obj key allowZero = .ok x ↔ obj.get key = .number x ∧
      ∃ z, x.toInt? = some z ∧ (if allowZero then 0 else 1) ≤ z := by
  simp only [requireSequence, bind_eq_ok, requireFiniteNumber_eq_ok]
  constructor
  · rintro ⟨y, ⟨hy, -⟩, h⟩
    split at h
    next z hz =>
      obtain ⟨hle, hx⟩ := ite_error_eq_ok.mp h
      obtain rfl := ok.inj hx
      exact ⟨hy, z, hz, not_lt.mp hle⟩
    next => cases h
  · rintro ⟨hx, z, hz, hle⟩
    refine ⟨x, ⟨hx, Double.isFinite_of_toInt? hz⟩, ?_⟩
    rw [hz]
    exact ite_error_eq_ok.mpr ⟨not_lt.mpr hle, rfl⟩

lemma get_singleton (key : String) (value : Value) :
    (Value.ofProperties [(key, value)]).get key = value := by
  simp [Value.ofProperties, Value.get]

variable {value w msg : Value}

lemma encodeSequence_eq_ok :
    encodeSequence value key allowZero = .ok w ↔
      ∃ n : Sequence allowZero, NumberSaidBy value n.number ∧ w = .bigint n.number := by
  simp only [encodeSequence, bind_eq_ok, requireSequence_eq_ok, get_singleton]
  constructor
  · rintro ⟨x, ⟨rfl, z, hz, hle⟩, h⟩
    rw [hz] at h
    obtain ⟨hsafe, hw⟩ := ite_error_eq_ok.mp h
    obtain rfl := ok.inj hw
    have hz' : ((z.natAbs : ℕ) : ℤ) = z := by
      split_ifs at hle <;> omega
    refine ⟨⟨z.natAbs, not_lt.mp hsafe, ?_⟩, ⟨x, rfl, by rw [hz, hz']⟩, by rw [hz']⟩
    split_ifs at hle ⊢ <;> omega
  · rintro ⟨n, ⟨x, rfl, hx⟩, rfl⟩
    refine ⟨x, ⟨rfl, _, hx, ?_⟩, ?_⟩
    · have hleast := n.least
      split_ifs at hleast ⊢ <;> omega
    · rw [hx]
      exact ite_error_eq_ok.mpr ⟨not_lt.mpr n.safe, rfl⟩

lemma parseLoad_eq_ok :
    parseLoad value = .ok w ↔ ∃ load : Load, load.SaidBy value ∧ w = load.object := by
  simp only [parseLoad, ite_error_eq_ok, bind_eq_ok, requireFiniteNumber_eq_ok, pure_eq_ok, not_not]
  constructor
  · rintro ⟨hrecord, cpu, ⟨hcpu, hcpu'⟩, memory, ⟨hmemory, hmemory'⟩, hrange, hnonneg, rfl⟩
    exact ⟨⟨cpu, memory, hcpu', hmemory', hrange, hnonneg⟩, ⟨hrecord, hcpu, hmemory⟩, rfl⟩
  · rintro ⟨load, ⟨hrecord, hcpu, hmemory⟩, rfl⟩
    exact ⟨hrecord, load.cpu, ⟨hcpu, load.cpu_finite⟩, load.memory, ⟨hmemory, load.memory_finite⟩,
      load.cpu_range, load.memory_nonneg, rfl⟩

lemma parsePeer_eq_ok :
    parsePeer value key = .ok w ↔ ∃ peer : Peer, peer.SaidBy value ∧ w = peer.object := by
  simp only [parsePeer, ite_error_eq_ok, mapError_eq_ok, bind_eq_ok, requireString_eq_ok,
    parseNodeId_eq_ok, parseLoad_eq_ok, pure_eq_ok, not_not, Value.string.injEq]
  constructor
  · rintro ⟨hrecord, _, hget, nodeId, ⟨rfl, hnodeId⟩, _, ⟨load, hload, rfl⟩, rfl⟩
    exact ⟨⟨⟨_, hnodeId⟩, load⟩, ⟨hrecord, hget, hload⟩, rfl⟩
  · rintro ⟨⟨⟨nodeId, hnodeId⟩, load⟩, ⟨hrecord, hget, hload⟩, rfl⟩
    exact ⟨hrecord, nodeId, hget, nodeId, ⟨rfl, hnodeId⟩, _, ⟨load, hload, rfl⟩, rfl⟩

lemma parsePeerItems_eq_ok {items r : List Value} :
    parsePeerItems items = .ok r ↔
      ∃ peers : List Peer, List.Forall₂ Peer.SaidBy items peers ∧ r = peers.map Peer.object := by
  unfold parsePeerItems
  rw [mapM_eq_ok_iff
    fun _ _ => parsePeer_eq_ok]
  have hitems (peers : List Peer) : List.Forall₂ (fun (p : Value × ℕ) peer => Peer.SaidBy p.1 peer)
      items.zipIdx peers ↔ List.Forall₂ Peer.SaidBy items peers := by
    rw [← forall₂_map_left_iff, zipIdx_map_fst]
  simp only [hitems]

lemma encodePeer_eq_ok :
    encodePeer value = .ok w ↔ ∃ peer : Peer, peer.SaidBy value ∧ w = peer.object := by
  simp only [encodePeer, bind_eq_ok, parsePeer_eq_ok, pure_eq_ok]
  constructor
  · rintro ⟨_, ⟨peer, hpeer, rfl⟩, rfl⟩
    exact ⟨peer, hpeer, rfl⟩
  · rintro ⟨peer, hpeer, rfl⟩
    exact ⟨_, ⟨peer, hpeer, rfl⟩, rfl⟩

lemma Peer.saidBy_object {peer peer' : Peer} : peer'.SaidBy peer.object ↔ peer = peer' := by
  constructor
  · rintro ⟨-, hnodeId, -, hcpu, hmemory⟩
    exact Peer.ext (Subtype.ext (Value.string.inj hnodeId))
      (Load.ext (Value.number.inj hcpu) (Value.number.inj hmemory))
  · rintro rfl
    exact ⟨rfl, rfl, rfl, rfl, rfl⟩

lemma encodePeers_eq_ok {peers : List Peer} {r : List Value} :
    (peers.map Peer.object).mapM encodePeer = .ok r ↔ r = peers.map Peer.object := by
  rw [mapM_eq_ok_iff fun _ _ => encodePeer_eq_ok]
  simp only [forall₂_map_left_iff, Peer.saidBy_object, forall₂_eq_eq_eq, exists_eq_left']

/-! ## Configurations -/

lemma stringArray_eq_ok :
    stringArray value key = .ok w ↔ ∃ l, value = textArray l ∧ w = textArray l := by
  cases value with
  | array items =>
    simp only [stringArray, ite_error_eq_ok, ok.injEq, textArray, Value.array.injEq]
    constructor
    · rintro ⟨hitems, rfl⟩
      have hl : ∃ l : List String, items = l.map .string := by
        induction items with
        | nil => exact ⟨[], rfl⟩
        | cons item items ih =>
          rw [any_cons, Bool.or_eq_true, not_or] at hitems
          obtain ⟨l, rfl⟩ := ih hitems.2
          cases item with
          | string s => exact ⟨s :: l, rfl⟩
          | _ => exact absurd rfl hitems.1
      obtain ⟨l, rfl⟩ := hl
      exact ⟨l, rfl, rfl⟩
    · rintro ⟨l, rfl, rfl⟩
      simp
  | _ => simp [stringArray, textArray]

lemma DirectiveKind.ofText?_eq_some {kind : DirectiveKind} :
    ofText? s = some kind ↔ s = kind.text := by
  constructor
  · intro h
    have hfound := List.find?_some h
    exact (of_decide_eq_true hfound).symm
  · rintro rfl
    cases kind <;> rfl

lemma stringArrayOrEmpty_eq_ok :
    stringArrayOrEmpty value key = .ok w ↔ ∃ l, Directive.ListSaidBy l value ∧ w = textArray l := by
  cases value with
  | undefined =>
    constructor
    · intro h
      obtain rfl := ok.inj h
      exact ⟨[], .inr ⟨rfl, rfl⟩, rfl⟩
    · rintro ⟨l, hl | ⟨-, rfl⟩, rfl⟩
      · cases hl
      · rfl
  | _ => simp [stringArrayOrEmpty, Value.isUndefined, stringArray_eq_ok, Directive.ListSaidBy]

lemma encodeDirectiveObject_eq_ok (hrecord : isRecord value) :
    encodeDirectiveObject value = .ok w ↔ ∃ d : Directive, d.SaidBy value ∧ w = d.wire := by
  have hstring (s : String) : value ≠ .string s := by
    rintro rfl
    cases hrecord
  simp only [encodeDirectiveObject, bind_eq_ok, requireString_eq_ok]
  constructor
  · rintro ⟨type, htype, h⟩
    split at h
    next kind hkind =>
      rw [DirectiveKind.ofText?_eq_some.mp hkind] at htype
      exact ⟨.inherit, .inr ⟨hrecord, htype⟩, (pure_eq_ok.mp h).symm⟩
    next kind hkind =>
      rw [DirectiveKind.ofText?_eq_some.mp hkind] at htype
      exact ⟨.block, .inr ⟨hrecord, htype⟩, (pure_eq_ok.mp h).symm⟩
    next kind hkind =>
      rw [DirectiveKind.ofText?_eq_some.mp hkind] at htype
      simp only [bind_eq_ok, requireString_eq_ok, pure_eq_ok] at h
      obtain ⟨target, htarget, rfl⟩ := h
      exact ⟨.remap target, ⟨hrecord, htype, htarget⟩, rfl⟩
    next kind hkind =>
      rw [DirectiveKind.ofText?_eq_some.mp hkind] at htype
      simp only [bind_eq_ok, requireString_eq_ok, pure_eq_ok] at h
      obtain ⟨code, hcode, sourceMap, hsourceMap, rfl⟩ := h
      exact ⟨.source code sourceMap, ⟨hrecord, htype, hcode, hsourceMap⟩, rfl⟩
    next kind hkind =>
      rw [DirectiveKind.ofText?_eq_some.mp hkind] at htype
      simp only [bind_eq_ok, requireString_eq_ok, stringArray_eq_ok, stringArrayOrEmpty_eq_ok,
        pure_eq_ok] at h
      obtain ⟨specifier, hspecifier, _, ⟨exported, hexported, rfl⟩, _, ⟨streams, hstreams, rfl⟩, _,
        ⟨sinks, hsinks, rfl⟩, rfl⟩ := h
      exact ⟨.facade specifier exported streams sinks,
        ⟨hrecord, htype, hspecifier, hexported, hstreams, hsinks⟩, rfl⟩
    next => cases h
  · rintro ⟨d, hd, rfl⟩
    cases d with
    | inherit | block => exact ⟨_, (hd.resolve_left (hstring _)).2, rfl⟩
    | remap target =>
      refine ⟨_, hd.2.1, ?_⟩
      exact bind_eq_ok.mpr ⟨target, requireString_eq_ok.mpr hd.2.2, rfl⟩
    | source code sourceMap =>
      refine ⟨_, hd.2.1, ?_⟩
      exact bind_eq_ok.mpr ⟨code, requireString_eq_ok.mpr hd.2.2.1,
        bind_eq_ok.mpr ⟨sourceMap, requireString_eq_ok.mpr hd.2.2.2, rfl⟩⟩
    | facade specifier exported streams sinks =>
      obtain ⟨-, htype, hspecifier, hexported, hstreams, hsinks⟩ := hd
      refine ⟨_, htype, ?_⟩
      exact bind_eq_ok.mpr ⟨specifier, requireString_eq_ok.mpr hspecifier,
        bind_eq_ok.mpr ⟨_, stringArray_eq_ok.mpr ⟨exported, hexported, rfl⟩,
        bind_eq_ok.mpr ⟨_, stringArrayOrEmpty_eq_ok.mpr ⟨streams, hstreams, rfl⟩,
        bind_eq_ok.mpr ⟨_, stringArrayOrEmpty_eq_ok.mpr ⟨sinks, hsinks, rfl⟩, rfl⟩⟩⟩⟩

lemma encodeDirective_eq_ok :
    encodeDirective value = .ok w ↔ ∃ d : Directive, d.SaidBy value ∧ w = d.wire := by
  by_cases hrecord : isRecord value
  · rw [← encodeDirectiveObject_eq_ok hrecord]
    cases value with
    | object get | bytes l => simp [encodeDirective, hrecord]
    | _ => cases hrecord
  · have hnone {d : Directive} (hd : d.SaidBy value) :
        value = .string "inherit" ∧ d = .inherit ∨ value = .string "block" ∧ d = .block := by
      cases d with
      | inherit => exact .inl ⟨hd.resolve_right fun h => hrecord h.1, rfl⟩
      | block => exact .inr ⟨hd.resolve_right fun h => hrecord h.1, rfl⟩
      | _ => exact absurd hd.1 hrecord
    constructor
    · intro h
      cases value with
      | string s =>
        unfold encodeDirective at h
        dsimp only at h
        split_ifs at h with hinherit hblock
        · exact ⟨.inherit, .inl (by rw [hinherit]), (ok.inj h).symm⟩
        · exact ⟨.block, .inl (by rw [hblock]), (ok.inj h).symm⟩
      | object get | bytes l => exact absurd rfl hrecord
      | _ => simp [encodeDirective, hrecord] at h
    · rintro ⟨d, hd, rfl⟩
      obtain ⟨rfl, rfl⟩ | ⟨rfl, rfl⟩ := hnone hd
      · rfl
      · rfl

lemma ifDefined_eq_ok {α : Type} {v : Value} {check : Except ProtocolError Value}
    (saidBy : Value → α → Prop) (value : α → Value) (hsaidBy : ∀ x, ¬ saidBy .undefined x)
    (hcheck : ∀ w, check = .ok w ↔ ∃ x, saidBy v x ∧ w = value x) :
    ifDefined v check = .ok w ↔ ∃ x, OptionSaidBy saidBy v x ∧ w = optional value x := by
  cases v with
  | undefined =>
    constructor
    · intro h
      exact ⟨none, rfl, (ok.inj h).symm⟩
    · rintro ⟨x, hx, rfl⟩
      cases x with
      | none => rfl
      | some x => exact absurd hx (hsaidBy x)
  | _ =>
    refine (hcheck w).trans ⟨?_, ?_⟩
    · rintro ⟨x, hx, rfl⟩
      exact ⟨some x, hx, rfl⟩
    · rintro ⟨x, hx, rfl⟩
      cases x with
      | none => cases hx
      | some x => exact ⟨x, hx, rfl⟩

lemma optionSaidBy_eq {α : Type} {f : α → Value} {x : Option α} :
    OptionSaidBy (fun value x => value = f x) value x ↔ value = optional f x := by
  cases x with
  | none => rfl
  | some x => rfl

lemma ifDefined_requireString :
    ifDefined (obj.get key) (.string <$> requireString obj key) = .ok w ↔
      ∃ x, obj.get key = optional .string x ∧ w = optional .string x := by
  rw [ifDefined_eq_ok (fun value s => value = .string s) .string (by simp)
    fun w => by simp only [map_eq_ok, requireString_eq_ok]]
  simp only [optionSaidBy_eq]

lemma ifDefined_requireBoolean :
    ifDefined (obj.get key) (.bool <$> requireBoolean obj key) = .ok w ↔
      ∃ x, obj.get key = optional .bool x ∧ w = optional .bool x := by
  rw [ifDefined_eq_ok (fun value b => value = .bool b) .bool (by simp)
    fun w => by simp only [map_eq_ok, requireBoolean_eq_ok]]
  simp only [optionSaidBy_eq]

lemma encodeRule_eq_ok :
    encodeRule value = .ok w ↔ ∃ rule : Rule, rule.SaidBy value ∧ w = rule.wire := by
  simp only [encodeRule, ite_error_eq_ok, bind_eq_ok, ifDefined_requireString,
    requireString_eq_ok, encodeDirective_eq_ok, pure_eq_ok, not_not]
  constructor
  · rintro ⟨hrecord, _, ⟨origin, horigin, rfl⟩, pattern, hpattern, _, ⟨directive, hdirective, rfl⟩,
      rfl⟩
    exact ⟨⟨origin, pattern, directive⟩, ⟨hrecord, horigin, hpattern, hdirective⟩, rfl⟩
  · rintro ⟨rule, ⟨hrecord, horigin, hpattern, hdirective⟩, rfl⟩
    exact ⟨hrecord, _, ⟨_, horigin, rfl⟩, _, hpattern, _, ⟨_, hdirective, rfl⟩, rfl⟩

lemma encodeCliOtel_eq_ok :
    encodeCliOtel value = .ok w ↔
      ∃ cliOtel : CliOtel, cliOtel.SaidBy value ∧ w = cliOtel.object := by
  simp only [encodeCliOtel, ite_error_eq_ok, bind_eq_ok, ifDefined_requireString,
    ifDefined_requireBoolean, pure_eq_ok, not_not]
  constructor
  · rintro ⟨hrecord, _, ⟨endpoint, hendpoint, rfl⟩, _, ⟨script, hscript, rfl⟩, _,
      ⟨debug, hdebug, rfl⟩, rfl⟩
    exact ⟨⟨endpoint, script, debug⟩, ⟨hrecord, hendpoint, hscript, hdebug⟩, rfl⟩
  · rintro ⟨cliOtel, ⟨hrecord, hendpoint, hscript, hdebug⟩, rfl⟩
    exact ⟨hrecord, _, ⟨_, hendpoint, rfl⟩, _, ⟨_, hscript, rfl⟩, _, ⟨_, hdebug, rfl⟩, rfl⟩

lemma encodeBootstrapData_eq_ok :
    encodeBootstrapData value = .ok w ↔
      ∃ data : BootstrapData, data.SaidBy value ∧ w = data.object := by
  have hcliOtel {v w : Value} : ifDefined v (encodeCliOtel v) = .ok w ↔
      ∃ x, OptionSaidBy CliOtel.SaidBy v x ∧ w = optional CliOtel.object x :=
    ifDefined_eq_ok CliOtel.SaidBy _ (fun x h => Bool.false_ne_true h.1) fun _ =>
      encodeCliOtel_eq_ok
  simp only [encodeBootstrapData, ite_error_eq_ok, bind_eq_ok, hcliOtel, pure_eq_ok, not_not]
  constructor
  · rintro ⟨hrecord, _, ⟨cliOtel, hcliOtel, rfl⟩, rfl⟩
    exact ⟨⟨cliOtel⟩, ⟨hrecord, hcliOtel⟩, rfl⟩
  · rintro ⟨data, ⟨hrecord, hcliOtel⟩, rfl⟩
    exact ⟨hrecord, _, ⟨_, hcliOtel, rfl⟩, rfl⟩

lemma parseSpawnConfig_eq_ok {bootstrapData : Value} {entry root : String} {rules : List Value} :
    parseSpawnConfig value = .ok (entry, root, rules, bootstrapData) ↔
      isRecord value ∧ value.get "rules" = .array rules ∧ value.get "entry" = .string entry ∧
        value.get "root" = .string root ∧ bootstrapData = value.get "bootstrapData" := by
  unfold parseSpawnConfig
  rw [ite_error_eq_ok, not_not]
  refine and_congr_right fun _ => ?_
  cases value.get "rules" with
  | array items =>
    simp only [bind_eq_ok, requireString_eq_ok, pure_eq_ok, Prod.mk.injEq, Value.array.injEq]
    constructor
    · rintro ⟨_, hentry, _, hroot, rfl, rfl, rfl, rfl⟩
      exact ⟨rfl, hentry, hroot, rfl⟩
    · rintro ⟨rfl, hentry, hroot, rfl⟩
      exact ⟨entry, hentry, root, hroot, rfl, rfl, rfl, rfl⟩
  | _ => simp

lemma encodeSpawnConfig_eq_ok :
    encodeSpawnConfig value = .ok w ↔
      ∃ config : SpawnConfig, config.SaidBy value ∧ w = config.wire := by
  have hdata {v w : Value} : ifDefined v (encodeBootstrapData v) = .ok w ↔
      ∃ x, OptionSaidBy BootstrapData.SaidBy v x ∧ w = optional BootstrapData.object x :=
    ifDefined_eq_ok BootstrapData.SaidBy _ (fun x h => Bool.false_ne_true h.1) fun _ =>
      encodeBootstrapData_eq_ok
  simp only [encodeSpawnConfig, bind_eq_ok, Prod.exists, parseSpawnConfig_eq_ok,
    mapM_eq_ok_iff fun _ _ => encodeRule_eq_ok, hdata, pure_eq_ok]
  constructor
  · rintro ⟨entry, root, items, _, ⟨hrecord, hitems, hentry, hroot, rfl⟩, _, ⟨rules, hrules, rfl⟩,
      _, ⟨data, hdata, rfl⟩, rfl⟩
    exact ⟨⟨entry, root, rules, data⟩, ⟨hrecord, hentry, hroot, ⟨items, hitems, hrules⟩, hdata⟩,
      rfl⟩
  · rintro ⟨config, ⟨hrecord, hentry, hroot, ⟨items, hitems, hrules⟩, hdata⟩, rfl⟩
    exact ⟨_, _, items, _, ⟨hrecord, hitems, hentry, hroot, rfl⟩, _, ⟨_, hrules, rfl⟩, _,
      ⟨_, hdata, rfl⟩, rfl⟩

/-! ## Messages -/

lemma MessageKind.ofText?_eq_some {kind : MessageKind} :
    ofText? value = some kind ↔ value = .string kind.text := by
  constructor
  · intro h
    cases value with
    | string s =>
      have hfound := List.find?_some h
      rw [of_decide_eq_true hfound]
    | _ => cases h
  · rintro rfl
    cases kind <;> rfl

lemma parseChildPortId_eq_ok :
    parseChildPortId value = .ok s ↔
      ∃ id : Option ClusterId, value = .string (childText id) ∧ s = childText id := by
  unfold parseChildPortId
  split_ifs with hempty
  · split at hempty
    · constructor
      · intro h
        exact ⟨none, rfl, (ok.inj h).symm⟩
      · rintro ⟨id, hid, rfl⟩
        rw [← Value.string.inj hid]
    · cases hempty
  · rw [parseClusterId_eq_ok]
    constructor
    · rintro ⟨rfl, hs⟩
      exact ⟨some ⟨s, hs⟩, rfl, rfl⟩
    · rintro ⟨id, rfl, rfl⟩
      cases id with
      | none => exact absurd rfl hempty
      | some id => exact ⟨rfl, id.2⟩

lemma optionSaidBy_string (h : value = .undefined ∨ IsTyped .string value) :
    ∃ x, value = optional .string x := by
  obtain h | ⟨s, h⟩ := h
  · exact ⟨none, h⟩
  · exact ⟨some s, h⟩

lemma ofType_optionalField {rules : Rules} {fields : List Field}
    (h : rules.ofType (.message fields) value) {name : String} {number : ℕ} {type : FieldType}
    (hfield : optionalField name number type ∈ fields) :
    value.get name = .undefined ∨ rules.ofType type (value.get name) :=
  Rules.ofType_optional h hfield Bool.false_ne_true rfl

lemma error_mem : optionalField "error" 12 (.scalar .string) ∈ envelopeMessage := by
  simp [envelopeMessage]

lemma payloadFormat_mem :
    optionalField "payloadFormat" 19 (.scalar .uint32) ∈ envelopeMessage := by
  simp [envelopeMessage]

lemma optionSaidBy_uint32 (h : value = .undefined ∨ IsTyped .uint32 value) :
    ∃ x : Option (Fin (2 ^ 32)), OptionSaidBy (fun value (n : Fin (2 ^ 32)) => NumberSaidBy value n)
      value x := by
  obtain h | ⟨x, z, rfl, hz, hmin, hmax⟩ := h
  · exact ⟨none, h⟩
  · refine ⟨some ⟨z.toNat, by omega⟩, x, rfl, ?_⟩
    rw [hz, Int.toNat_of_nonneg hmin]

/-- What the type of a message says and `encode` does not check. -/
def IsClusterMessage (msg : Value) : Prop :=
  msg.get "t" = .string spawnAck.text → ∃ ok, msg.get "ok" = .bool ok

lemma payload_eq {parts : List Value} (h : ¬ parts.any (fun part => ¬ part matches .bytes _)) :
    ∃ payload : List (List UInt8), parts = payload.map .bytes := by
  induction parts with
  | nil => exact ⟨[], rfl⟩
  | cons part parts ih =>
    rw [any_cons, Bool.or_eq_true, not_or] at h
    obtain ⟨payload, rfl⟩ := ih h.2
    cases part with
    | bytes l => exact ⟨l :: payload, rfl⟩
    | _ => exact absurd rfl h.1

lemma toWire_of_saidBy {content : Content} (h : content.SaidBy msg) :
    toWire msg = .ok (content.wire (msg.get "payloadFormat")) := by
  obtain ⟨hkind, h⟩ := h
  unfold toWire
  rw [ofText?_eq_some.mpr hkind]
  cases content with
  | hello nodeId load =>
    exact bind_eq_ok.mpr ⟨nodeId, parseNodeId_eq_ok.mpr ⟨h.1, nodeId.2⟩,
      bind_eq_ok.mpr ⟨_, parseLoad_eq_ok.mpr ⟨load, h.2, rfl⟩, rfl⟩⟩
  | welcome nodeId peers =>
    obtain ⟨hnodeId, items, hitems, hpeers⟩ := h
    refine bind_eq_ok.mpr ⟨nodeId, parseNodeId_eq_ok.mpr ⟨hnodeId, nodeId.2⟩,
      bind_eq_ok.mpr ⟨_, ?_, bind_eq_ok.mpr ⟨_, encodePeers_eq_ok.mpr rfl, rfl⟩⟩⟩
    rw [hitems]
    exact parsePeerItems_eq_ok.mpr ⟨peers, hpeers, rfl⟩
  | peerUp peer => exact bind_eq_ok.mpr ⟨_, encodePeer_eq_ok.mpr ⟨peer, h, rfl⟩, rfl⟩
  | peerDown nodeId =>
    exact bind_eq_ok.mpr ⟨nodeId, parseNodeId_eq_ok.mpr ⟨h, nodeId.2⟩, rfl⟩
  | heartbeat ts =>
    exact bind_eq_ok.mpr ⟨ts, requireFiniteNumber_eq_ok.mpr ⟨h, ts.2⟩, rfl⟩
  | spawn spawnReqId parentPortId config =>
    exact bind_eq_ok.mpr ⟨_, parseHandleId_eq_ok.mpr ⟨h.1, spawnReqId.2⟩,
      bind_eq_ok.mpr ⟨_, parseClusterId_eq_ok.mpr ⟨h.2.1, parentPortId.2⟩,
      bind_eq_ok.mpr ⟨_, encodeSpawnConfig_eq_ok.mpr ⟨config, h.2.2, rfl⟩, rfl⟩⟩⟩
  | spawnAck spawnReqId childPortId ok error =>
    obtain ⟨hreq, hchild, hok, herror⟩ := h
    refine bind_eq_ok.mpr ⟨_, parseHandleId_eq_ok.mpr ⟨hreq, spawnReqId.2⟩,
      bind_eq_ok.mpr ⟨_, parseChildPortId_eq_ok.mpr ⟨childPortId, hchild, rfl⟩, ?_⟩⟩
    rw [hok, herror]
    rfl
  | realmExit realmId lastPortSeq error =>
    obtain ⟨hrealmId, hseq, herror⟩ := h
    refine bind_eq_ok.mpr ⟨_, parseClusterId_eq_ok.mpr ⟨hrealmId, realmId.2⟩,
      bind_eq_ok.mpr ⟨_, encodeSequence_eq_ok.mpr ⟨lastPortSeq, hseq, rfl⟩, ?_⟩⟩
    rw [herror]
    rfl
  | terminate realmId =>
    exact bind_eq_ok.mpr ⟨_, parseClusterId_eq_ok.mpr ⟨h, realmId.2⟩, rfl⟩
  | portMsg fromPort toPort payload seq payloadFormat =>
    obtain ⟨hfrom, hto, hpayload, hseq, -⟩ := h
    rw [hpayload]
    refine ite_error_eq_ok.mpr ⟨by simp, ?_⟩
    exact bind_eq_ok.mpr ⟨_, parseClusterId_eq_ok.mpr ⟨hfrom, fromPort.2⟩,
      bind_eq_ok.mpr ⟨_, parseClusterId_eq_ok.mpr ⟨hto, toPort.2⟩,
      bind_eq_ok.mpr ⟨_, encodeSequence_eq_ok.mpr ⟨seq, hseq, rfl⟩, rfl⟩⟩⟩

lemma saidBy_of_toWire (hmsg : IsClusterMessage msg) (h : toWire msg = .ok w)
    (hwritten : written.ofType (.message envelopeMessage) w) :
    ∃ content : Content, content.SaidBy msg ∧ w = content.wire (msg.get "payloadFormat") := by
  suffices ∃ content : Content, content.SaidBy msg by
    obtain ⟨content, hcontent⟩ := this
    rw [toWire_of_saidBy hcontent] at h
    exact ⟨content, hcontent, (ok.inj h).symm⟩
  unfold toWire at h
  split at h <;> rename_i hkind <;> first | cases h | replace hkind := ofText?_eq_some.mp hkind
  · simp only [bind_eq_ok, parseNodeId_eq_ok, parseLoad_eq_ok] at h
    obtain ⟨nodeId, ⟨hnodeId, hvalid⟩, _, ⟨load, hload, -⟩, -⟩ := h
    exact ⟨.hello ⟨nodeId, hvalid⟩ load, hkind, hnodeId, hload⟩
  · simp only [bind_eq_ok, parseNodeId_eq_ok] at h
    obtain ⟨nodeId, ⟨hnodeId, hvalid⟩, _, hpeers, -⟩ := h
    cases hitems : msg.get "peers" with
    | array items =>
      rw [hitems] at hpeers
      obtain ⟨peers, hpeers, -⟩ := parsePeerItems_eq_ok.mp hpeers
      exact ⟨.welcome ⟨nodeId, hvalid⟩ peers, hkind, hnodeId, items, hitems, hpeers⟩
    | _ =>
      rw [hitems] at hpeers
      cases hpeers
  · simp only [bind_eq_ok, encodePeer_eq_ok] at h
    obtain ⟨_, ⟨peer, hpeer, -⟩, -⟩ := h
    exact ⟨.peerUp peer, hkind, hpeer⟩
  · simp only [bind_eq_ok, parseNodeId_eq_ok] at h
    obtain ⟨nodeId, ⟨hnodeId, hvalid⟩, -⟩ := h
    exact ⟨.peerDown ⟨nodeId, hvalid⟩, hkind, hnodeId⟩
  · simp only [bind_eq_ok, requireFiniteNumber_eq_ok] at h
    obtain ⟨ts, ⟨hts, hfinite⟩, -⟩ := h
    exact ⟨.heartbeat ⟨ts, hfinite⟩, hkind, hts⟩
  · simp only [bind_eq_ok, parseHandleId_eq_ok, parseClusterId_eq_ok, encodeSpawnConfig_eq_ok] at h
    obtain ⟨spawnReqId, ⟨hreq, hreq'⟩, parentPortId, ⟨hport, hport'⟩, _, ⟨config, hconfig, -⟩, -⟩ :=
      h
    exact ⟨.spawn ⟨spawnReqId, hreq'⟩ ⟨parentPortId, hport'⟩ config, hkind, hreq, hport, hconfig⟩
  · simp only [bind_eq_ok, parseHandleId_eq_ok, parseChildPortId_eq_ok, pure_eq_ok] at h
    obtain ⟨spawnReqId, ⟨hreq, hreq'⟩, _, ⟨childPortId, hchild, rfl⟩, rfl⟩ := h
    obtain ⟨ok, hok⟩ := hmsg hkind
    obtain ⟨error, herror⟩ := optionSaidBy_string (ofType_optionalField hwritten error_mem)
    exact ⟨.spawnAck ⟨spawnReqId, hreq'⟩ childPortId ok error, hkind, hreq, hchild, hok, herror⟩
  · simp only [bind_eq_ok, parseClusterId_eq_ok, encodeSequence_eq_ok, pure_eq_ok] at h
    obtain ⟨realmId, ⟨hrealm, hrealm'⟩, _, ⟨lastPortSeq, hseq, rfl⟩, rfl⟩ := h
    obtain ⟨error, herror⟩ := optionSaidBy_string (ofType_optionalField hwritten error_mem)
    exact ⟨.realmExit ⟨realmId, hrealm'⟩ lastPortSeq error, hkind, hrealm, hseq, herror⟩
  · simp only [bind_eq_ok, parseClusterId_eq_ok] at h
    obtain ⟨realmId, ⟨hrealm, hrealm'⟩, -⟩ := h
    exact ⟨.terminate ⟨realmId, hrealm'⟩, hkind, hrealm⟩
  · cases hparts : msg.get "payload" with
    | array parts =>
      rw [hparts] at h
      simp only [ite_error_eq_ok, bind_eq_ok, parseClusterId_eq_ok, encodeSequence_eq_ok,
        pure_eq_ok] at h
      obtain ⟨hbytes, fromPort, ⟨hfrom, hfrom'⟩, toPort, ⟨hto, hto'⟩, _, ⟨seq, hseq, rfl⟩, rfl⟩ := h
      obtain ⟨payload, rfl⟩ := payload_eq hbytes
      obtain ⟨format, hformat⟩ :=
        optionSaidBy_uint32 (ofType_optionalField hwritten payloadFormat_mem)
      exact ⟨.portMsg ⟨fromPort, hfrom'⟩ ⟨toPort, hto'⟩ payload seq format, hkind, hfrom, hto,
        hparts, hseq, hformat⟩
    | _ =>
      rw [hparts] at h
      cases h

end Fino.Cluster.Codec
