import CustomAi.Vllm.Request

/-!
# Block hashes

The functions of `vllm/v1/core/kv_cache_utils.py` that hash the full blocks of a request.
-/

namespace CustomAi.Vllm

/-- An entry of the tuple of extra keys. LoRA names, multimodal identifiers and salts are all
plain strings there. -/
inductive ExtraKey
  | str (s : String)
  | bytes (b : Bytes)
  deriving DecidableEq, Repr

abbrev BlockHashInput := BlockHash × List TokenId × Option (List ExtraKey)

/-- `caching_hash_fn` with the seed `NONE_HASH` of a chain. -/
structure CachingHashFn where
  hash : BlockHashInput → BlockHash
  noneHash : BlockHash

/-- The loop of `_gen_mm_extra_hash_keys` over the features from `currMmIdx` on. -/
def mmExtraHashKeysLoop (startTokenIdx endTokenIdx : ℕ) :
    List MultiModalFeatureSpec → ℕ → List ExtraKey × ℕ
  | [], currMmIdx => ([], currMmIdx)
  | mmFeature :: rest, currMmIdx =>
    let offset := mmFeature.mmPosition.offset
    let length := mmFeature.mmPosition.length
    if endTokenIdx > offset then
      if startTokenIdx > offset + length then
        -- this block has passed the current input
        mmExtraHashKeysLoop startTokenIdx endTokenIdx rest (currMmIdx + 1)
      else if endTokenIdx ≥ offset + length then
        let (extraKeys, nextMmIdx) := mmExtraHashKeysLoop startTokenIdx endTokenIdx rest (currMmIdx + 1)
        (.str mmFeature.identifier :: extraKeys, nextMmIdx)
      else ([.str mmFeature.identifier], currMmIdx)
    else ([], currMmIdx)

/-- `_gen_mm_extra_hash_keys`. A negative `startMmIdx` counts from the end of the features. -/
def genMmExtraHashKeys (request : Request) (startTokenIdx endTokenIdx : ℕ) (startMmIdx : ℤ) :
    List ExtraKey × ℤ :=
  match request.mmFeatures.getLast? with
  | none => ([], startMmIdx)
  | some last =>
    if last.mmPosition.offset + last.mmPosition.length < startTokenIdx then ([], startMmIdx)
    else
      let startMmIdx := if startMmIdx < 0 then request.mmFeatures.length + startMmIdx
        else startMmIdx
      let (extraKeys, nextMmIdx) := mmExtraHashKeysLoop startTokenIdx endTokenIdx
        (request.mmFeatures.drop startMmIdx.toNat) startMmIdx.toNat
      (extraKeys, nextMmIdx)

def genLoraExtraHashKeys (request : Request) : List ExtraKey :=
  match request.loraRequest with
  | none => []
  | some lora => [.str lora.loraName]

def genCacheSaltKeys (request : Request) (startTokenIdx : ℕ) : List ExtraKey :=
  match request.cacheSalt with
  | none => []
  | some salt => if startTokenIdx = 0 ∧ salt ≠ "" then [.str salt] else []

def genPromptEmbedsExtraHashKeys (request : Request) (startTokenIdx endTokenIdx : ℕ) :
    List ExtraKey :=
  match request.promptEmbeds with
  | none => []
  | some rows => [.bytes ((rows.take endTokenIdx).drop startTokenIdx).flatten]

def generateBlockHashExtraKeys (request : Request) (startTokenIdx endTokenIdx : ℕ)
    (startMmIdx : ℤ) : Option (List ExtraKey) × ℤ :=
  let (mmExtraKeys, newStartMmIdx) := genMmExtraHashKeys request startTokenIdx endTokenIdx startMmIdx
  let extraKeys := genLoraExtraHashKeys request ++ mmExtraKeys ++ genCacheSaltKeys request startTokenIdx ++
    genPromptEmbedsExtraHashKeys request startTokenIdx endTokenIdx
  (if extraKeys = [] then none else some extraKeys, newStartMmIdx)

/-- `hash_block_tokens`. A missing or empty parent hash stands for the start of a chain. -/
def hashBlockTokens (hashFunction : CachingHashFn) (parentBlockHash : Option BlockHash)
    (currBlockTokenIds : List TokenId) (extraKeys : Option (List ExtraKey)) : BlockHash :=
  let parent := match parentBlockHash with
    | none | some [] => hashFunction.noneHash
    | some h => h
  hashFunction.hash (parent, currBlockTokenIds, extraKeys)

/-- The loop of `request_block_hasher`; `fuel` need not exceed the number of tokens. -/
def requestBlockHasherLoop (blockSize : ℕ) (cachingHashFn : CachingHashFn) (request : Request) :
    ℕ → ℕ → ℤ → Option BlockHash → List BlockHash
  | 0, _, _, _ => []
  | fuel + 1, startTokenIdx, currMmIdx, prevBlockHash =>
    let endTokenIdx := startTokenIdx + blockSize
    if endTokenIdx > request.numTokens then []
    else
      let (extraKeys, nextMmIdx) := generateBlockHashExtraKeys request startTokenIdx endTokenIdx currMmIdx
      let blockTokens := (request.allTokenIds.take endTokenIdx).drop startTokenIdx
      let blockHash := hashBlockTokens cachingHashFn prevBlockHash blockTokens extraKeys
      blockHash :: requestBlockHasherLoop blockSize cachingHashFn request fuel
        (startTokenIdx + blockSize) nextMmIdx (some blockHash)

def getRequestBlockHasher (blockSize : ℕ) (cachingHashFn : CachingHashFn) : BlockHasher :=
  fun request =>
    let startTokenIdx := request.blockHashes.length * blockSize
    if startTokenIdx + blockSize > request.numTokens then []
    else
      -- a resumed scan only considers the last multimodal input
      let currMmIdx : ℤ := if startTokenIdx > 0 then -1 else 0
      requestBlockHasherLoop blockSize cachingHashFn request (request.numTokens + 1)
        startTokenIdx currMmIdx request.blockHashes.getLast?

end CustomAi.Vllm
