import ComputeScript.Proofs.Object.Reading

/-!
# Objects are read back

Every part of an image is read from what it is written as, so an object is read back as the image
that it was made from (`Image.decode?_encode`).
-/

namespace ComputeScript

open Binary

namespace Inst

theorem reads_decode (inst : Inst Nat) : Reads Inst.decode inst.encode inst := by
  cases inst with
  | const v => exact (reads_anyByte 0x41).bind ((reads_word v).map Inst.const)
  | localGet i => exact (reads_anyByte 0x20).bind ((reads_index i).map Inst.localGet)
  | localSet i => exact (reads_anyByte 0x21).bind ((reads_index i).map Inst.localSet)
  | localTee i => exact (reads_anyByte 0x22).bind ((reads_index i).map Inst.localTee)
  | globalGet i => exact (reads_anyByte 0x23).bind ((reads_nat i).map Inst.globalGet)
  | globalSet i => exact (reads_anyByte 0x24).bind ((reads_nat i).map Inst.globalSet)
  | load o =>
    exact (reads_anyByte 0x28).bind ((reads_theByte 0x02).bind ((reads_index o).map Inst.load))
  | store o =>
    exact (reads_anyByte 0x36).bind ((reads_theByte 0x02).bind ((reads_index o).map Inst.store))
  | binary op => cases op <;> exact (reads_anyByte _).bind (reads_pure _)
  | eqz => exact (reads_anyByte 0x45).bind (reads_pure Inst.eqz)
  | call i => exact (reads_anyByte 0x10).bind ((reads_nat i).map Inst.call)
  | block => exact (reads_anyByte 0x02).bind ((reads_theByte 0x40).map fun _ => Inst.block)
  | loop => exact (reads_anyByte 0x03).bind ((reads_theByte 0x40).map fun _ => Inst.loop)
  | close => exact (reads_anyByte endByte).bind (reads_pure Inst.close)
  | br d => exact (reads_anyByte 0x0C).bind ((reads_index d).map Inst.br)
  | brIf d => exact (reads_anyByte 0x0D).bind ((reads_index d).map Inst.brIf)
  | drop => exact (reads_anyByte 0x1A).bind (reads_pure Inst.drop)
  | ret => exact (reads_anyByte 0x0F).bind (reads_pure Inst.ret)

theorem encode_ne_nil (inst : Inst Nat) : inst.encode ≠ [] := by
  cases inst <;> exact List.cons_ne_nil _ _

/-- A body is read up to its final end, also where instructions that close blocks stand in front of
it. -/
theorem decodeBody_encode (body : List (Inst Nat)) (fuel : Nat) (h : body.length < fuel) :
    Inst.decodeBody fuel (body.flatMap Inst.encode ++ [endByte]) = some (body, []) := by
  induction body generalizing fuel with
  | nil =>
    obtain ⟨fuel, rfl⟩ : ∃ k, fuel = k + 1 := ⟨fuel - 1, by omega⟩
    rfl
  | cons inst body ih =>
    obtain ⟨fuel, rfl⟩ : ∃ k, fuel = k + 1 := ⟨fuel - 1, by omega⟩
    rw [List.length_cons] at h
    have hrest := ih fuel (by omega)
    let bytes := (inst :: body).flatMap Inst.encode ++ [endByte]
    have hmore : bytes ≠ [endByte] := by
      intro heq
      have hpos := List.length_pos_iff.2 inst.encode_ne_nil
      have hlength := congrArg List.length heq
      simp only [bytes, List.flatMap_cons, List.length_append, List.length_singleton] at hlength
      omega
    have hstep : Inst.decodeBody (fuel + 1) bytes =
        (if bytes = [endByte] then (do set ([] : Bytes); return [])
          else (do return (← Inst.decode) :: (← Inst.decodeBody fuel)) : Decoder _) bytes := rfl
    have hbind : (do return (← Inst.decode) :: (← Inst.decodeBody fuel) : Decoder _) bytes =
        (Inst.decode bytes).bind fun r =>
          (Inst.decodeBody fuel r.2).bind fun r' => some (r.1 :: r'.1, r'.2) := rfl
    have hinst : Inst.decode bytes = some (inst, body.flatMap Inst.encode ++ [endByte]) := by
      simp only [bytes, List.flatMap_cons, List.append_assoc]
      exact reads_decode inst _
    rw [hstep, if_neg hmore, hbind, hinst, Option.bind_some, hrest, Option.bind_some]

theorem length_le_length_flatMap_encode (body : List (Inst Nat)) :
    body.length ≤ (body.flatMap Inst.encode).length := by
  induction body with
  | nil => exact Nat.le_refl 0
  | cons inst body ih =>
    have hpos := List.length_pos_iff.2 inst.encode_ne_nil
    rw [List.flatMap_cons, List.length_append, List.length_cons]
    omega

end Inst

theorem FuncType.reads_decode (t : FuncType) : Reads FuncType.decode t.encode t := by
  have hwords (n : UInt32) : Reads (items (theByte wordType))
      (vector (fun _ => [wordType]) (List.replicate n.toNat ())) (List.replicate n.toNat ()) := by
    have h : Reads _ _ ((List.replicate n.toNat ()).map id) :=
      reads_items fun _ _ => reads_theByte wordType
    rwa [List.map_id] at h
  have h : Reads FuncType.decode t.encode
      ⟨UInt32.ofNat (List.replicate t.params.toNat ()).length,
        UInt32.ofNat (List.replicate t.results.toNat ()).length⟩ :=
    (reads_theByte 0x60).bind ((hwords t.params).bind ((hwords t.results).map _))
  rwa [List.length_replicate, List.length_replicate, UInt32.ofNat_toNat, UInt32.ofNat_toNat] at h

theorem ExportKind.reads_decode (k : ExportKind) : Reads ExportKind.decode [k.encode] k := by
  cases k <;> exact (reads_anyByte _).bind (reads_pure _)

theorem Exported.reads_decode (e : Exported) : Reads Exported.decode e.encode e :=
  (reads_anyText e.name).bind ((ExportKind.reads_decode e.kind).bind
    ((reads_nat e.index).map (Exported.mk e.name e.kind)))

namespace Code

theorem reads_decodeLocals (locals : UInt32) :
    Reads decodeLocals (encodeLocals locals) locals := by
  unfold encodeLocals
  by_cases h : locals = 0
  · rw [if_pos h, h]
    exact (reads_anyByte 0x00).bind (reads_pure 0)
  · rw [if_neg h]
    exact (reads_anyByte 0x01).bind ((reads_index locals).bind
      ((reads_theByte wordType).map fun _ => locals))

theorem reads_decode (c : Code) : Reads Code.decode c.encode (c.locals, c.body) := by
  refine reads_within ?_
  let rest := c.body.flatMap Inst.encode ++ [endByte]
  have hlength : c.body.length < rest.length := by
    have hle := Inst.length_le_length_flatMap_encode c.body
    rw [List.length_append, List.length_singleton]
    omega
  have hbody := Inst.decodeBody_encode c.body rest.length hlength
  have h : (do
      let locals ← decodeLocals
      let bytes ← get
      return (locals, ← Inst.decodeBody bytes.length) : Decoder _)
        (encodeLocals c.locals ++ rest) =
      (decodeLocals (encodeLocals c.locals ++ rest)).bind fun r =>
        (Inst.decodeBody r.2.length r.2).bind fun r' => some ((r.1, r'.1), r'.2) := rfl
  rw [List.append_assoc, h, reads_decodeLocals, Option.bind_some, hbody, Option.bind_some]

end Code

namespace Image

theorem reads_decodeGlobal (init : Int32) :
    Reads decodeGlobal (encodeGlobal init) init := by
  have h : Reads decodeGlobal ([wordType] ++ ([0x01] ++ ([0x41] ++
      (Leb128.encodeInt init.toInt ++ [endByte])))) init :=
    (reads_theByte wordType).bind ((reads_theByte 0x01).bind ((reads_theByte 0x41).bind
      ((reads_word init).bind ((reads_theByte endByte).map fun _ => init))))
  exact h

/-- The memory section and its absence are told apart by what follows. -/
theorem read_memory (memory : Bool) {rest : Bytes} (h : rest.head? ≠ some 5) :
    inSectionOr 5 false (do
      theByte 0x01
      theByte 0x00
      theByte 0x01
      return true) ((if memory then encodeMemory else []) ++ rest) = some (memory, rest) := by
  cases memory with
  | false =>
    rw [if_neg Bool.false_ne_true, List.nil_append]
    exact inSectionOr_of_absent _ false h
  | true =>
    rw [if_pos rfl]
    have hread : Reads (do
        theByte 0x01
        theByte 0x00
        theByte 0x01
        return true) ([0x01] ++ ([0x00] ++ [0x01])) true :=
      (reads_theByte 0x01).bind ((reads_theByte 0x00).bind
        ((reads_theByte 0x01).map fun _ => true))
    exact inSectionOr_of_present false hread rest

theorem read_globals (globals : List Int32) {rest : Bytes} (h : rest.head? ≠ some 6) :
    inSectionOr 6 [] (items decodeGlobal)
      ((if globals.isEmpty then [] else sectionOf 6 (vector encodeGlobal globals)) ++ rest) =
        some (globals, rest) := by
  cases globals with
  | nil => exact inSectionOr_of_absent _ [] h
  | cons init inits =>
    have hread : Reads (items decodeGlobal) (vector encodeGlobal (init :: inits))
        ((init :: inits).map id) := reads_items fun init _ => reads_decodeGlobal init
    rw [List.map_id] at hread
    exact inSectionOr_of_present [] hread rest

theorem reads_header : Reads (do for b in header do theByte b) header () :=
  fun _ => rfl

theorem zipWith_code (funcs : List Code) :
    List.zipWith (fun t (c : UInt32 × List (Inst Nat)) => (⟨t, c.1, c.2⟩ : Code))
      (funcs.map Code.typeIndex) (funcs.map fun c => (c.locals, c.body)) = funcs := by
  rw [List.zipWith_map, List.zipWith_self]
  exact List.map_id funcs

theorem decoder_encode (image : Image) : decoder image.encode = some (image, []) := by
  have htypes : Reads (items FuncType.decode) (vector FuncType.encode image.types)
      (image.types.map id) := reads_items fun t _ => t.reads_decode
  have hindices : Reads (items nat) (vector (fun c => Leb128.encodeNat c.typeIndex) image.funcs)
      (image.funcs.map Code.typeIndex) := reads_items fun c _ => reads_nat c.typeIndex
  have hexports : Reads (items Exported.decode) (vector Exported.encode image.exports)
      (image.exports.map id) := reads_items fun e _ => e.reads_decode
  have hbodies : Reads (items Code.decode) (vector Code.encode image.funcs)
      (image.funcs.map fun c => (c.locals, c.body)) := reads_items fun c _ => c.reads_decode
  have hlengths : (image.funcs.map Code.typeIndex).length =
      (image.funcs.map fun c => (c.locals, c.body)).length := by
    rw [List.length_map, List.length_map]
  rw [List.map_id] at htypes hexports
  have hcode := (reads_inSection 10 hbodies).eq_some
  unfold decoder encode
  simp only [List.append_assoc]
  refine bind_eq_some (reads_header _) ?_
  refine bind_eq_some (reads_inSection 1 htypes _) ?_
  refine bind_eq_some (reads_inSection 3 hindices _) ?_
  refine bind_eq_some (read_memory image.memory ?_) ?_
  · cases image.globals <;> exact fun h => nomatch h
  refine bind_eq_some (read_globals image.globals fun h => nomatch h) ?_
  refine bind_eq_some (reads_inSection 7 hexports _) ?_
  refine bind_eq_some hcode ?_
  rw [if_pos hlengths, zipWith_code]
  rfl

/-- An object is read back as the image that it was made from, whatever image that is. -/
theorem decode?_encode (image : Image) : decode? image.encode = some image := by
  rw [decode?, decoder_encode]

end Image

end ComputeScript
