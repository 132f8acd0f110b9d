import CustomAi.Lib.Dict
import CustomAi.Lib.Matcher
import CustomAi.Lib.Strip

/-!
# Tags in streamed content

`tag_content_handler` of `utils/middleware.py` and the content deltas of `stream_body_handler`.
-/

namespace CustomAi.OpenWebUI.TagContent

abbrev Str := List Char

/-- `str.isspace` of one character, which is `\s` in a pattern as well. -/
def isspace (c : Char) : Bool :=
  (9 ≤ c.toNat && c.toNat ≤ 13) || (28 ≤ c.toNat && c.toNat ≤ 32) || (0x2000 ≤ c.toNat &&
    c.toNat ≤ 0x200a) || c.toNat ∈ [0x85, 0xa0, 0x1680, 0x2028, 0x2029, 0x202f, 0x205f, 0x3000]

/-- `.*?>`: up to the first `>`, on one line unless with `re.DOTALL`. -/
def upToBracket (dotall : Bool) : Matcher Char Str
  | [] => none
  | c :: l =>
    if c = '>' then some ([], l)
    else if c = '\n' && !dotall then none
    else (upToBracket dotall l).map fun (s, rest) => (c :: s, rest)

def bracketed (start_tag : Str) : Bool :=
  start_tag.head? = some '<' && start_tag.getLast? = some '>'

/-- `start_tag[1:-1]` -/
def tagName (start_tag : Str) : Str := start_tag.tail.dropLast

/-- `start_tag_pattern`, which captures the attributes -/
def start_tag_pattern (dotall : Bool) (start_tag : Str) : Matcher Char Str := fun l =>
  if bracketed start_tag then
    match Matcher.literal ('<' :: tagName start_tag) l with
    | none => none
    | some (_, rest) =>
      match rest with
      | [] => none
      | c :: rest =>
        if c = '>' then some ([], rest)
        else if isspace c then (upToBracket dotall rest).map fun (s, rest) => (c :: s, rest)
        else none
  else (Matcher.literal start_tag l).map fun (_, rest) => ([], rest)

/-- `<{re.escape(start_tag)}(.*?)>`, which is taken out of the content of a block -/
def stray_tag_pattern (start_tag : Str) : Matcher Char Str := fun l =>
  (Matcher.literal ('<' :: start_tag) l).bind fun (_, rest) => upToBracket false rest

/-- `{start_tag_pattern}(.|\n)*?{re.escape(end_tag)}` with `re.DOTALL` -/
def section_pattern (start_tag end_tag : Str) : Matcher Char Unit := fun l =>
  (start_tag_pattern true start_tag l).bind fun (_, rest) =>
    ((Matcher.literal end_tag).search rest).map fun (_, m) => m

/-- `(\w+)\s*=\s*"([^"]+)"` -/
def attribute_pattern (isword : Char → Bool) : Matcher Char (Str × Str) := fun l =>
  let key := l.takeWhile isword
  match (l.dropWhile isword).dropWhile isspace with
  | '=' :: rest =>
    match rest.dropWhile isspace with
    | '"' :: rest =>
      let value := rest.takeWhile (· ≠ '"')
      match rest.dropWhile (· ≠ '"') with
      | '"' :: rest => if key ≠ [] ∧ value ≠ [] then some ((key, value), rest) else none
      | _ => none
    | _ => none
  | _ => none

def extract_attributes (isword : Char → Bool) (tag_content : Str) : Dict Str Str :=
  ((attribute_pattern isword).findAll tag_content).foldl (fun d (key, value) => d.set key value)
    .empty

inductive BlockType
  | text
  | reasoning
  | solution
  | code_interpreter
  deriving DecidableEq

structure Block where
  type : BlockType
  content : Str
  start_tag : Str := []
  end_tag : Str := []
  attributes : Dict Str Str := .empty

def Block.text (content : Str) : Block := { type := .text, content }

/-- `content_blocks`, which is never empty while deltas come. -/
structure Blocks where
  init : List Block
  last : Block

def Blocks.toList (b : Blocks) : List Block := b.init ++ [b.last]

def Blocks.append (b : Blocks) (block : Block) : Blocks := ⟨b.toList, block⟩

/-- `content_blocks.pop()` and then `append` -/
def Blocks.replaceLast (b : Blocks) (block : Block) : Blocks := ⟨b.init, block⟩

/-- `tag_content_handler` where the last block has the type of the tag: the first end tag in
`content` closes it. -/
def closeTag (content_type : BlockType) (content : Str) (b : Blocks) : Str × Blocks × Bool :=
  let start_tag := b.last.start_tag
  let end_tag := b.last.end_tag
  match (Matcher.literal end_tag).search content with
  | none => (content, b, false)
  | some _ =>
    let block_content := strip isspace ((stray_tag_pattern start_tag).delete b.last.content)
    let (inside, leftover) := match (Matcher.literal end_tag).search block_content with
      | none => (block_content, [])
      | some (inside, _, leftover) => (inside, leftover)
    let block_content := strip isspace inside
    let leftover_content := strip isspace leftover
    let b' : Blocks :=
      if block_content ≠ [] then
        if content_type ≠ .code_interpreter then
          (b.replaceLast { b.last with content := block_content }).append (.text leftover_content)
        else b.replaceLast { b.last with content := block_content }
      else b.replaceLast (.text leftover_content)
    ((section_pattern start_tag end_tag).delete content, b', true)

variable (isword : Char → Bool)

/-- The first start tag in `content` opens a block. What the recursive call returns is dropped. -/
def openTag (content_type : BlockType) (content : Str) (b : Blocks) :
    List (Str × Str) → Blocks
  | [] => b
  | (start_tag, end_tag) :: tags =>
    match (start_tag_pattern false start_tag).search content with
    | none => openTag content_type content b tags
    | some (before_tag, attr_content, after_tag) =>
      let cut := (Matcher.literal (content.drop before_tag.length)).delete b.last.content
      let textContent := if before_tag ≠ [] then before_tag else cut
      let block : Block :=
        { type := content_type
          content := after_tag
          start_tag, end_tag
          attributes := extract_attributes isword attr_content }
      let b := if textContent ≠ [] then
          (b.replaceLast { b.last with content := textContent }).append block
        else b.replaceLast block
      if after_tag ≠ [] then (closeTag content_type after_tag b).2.1 else b

def tag_content_handler (content_type : BlockType) (tags : List (Str × Str)) (content : Str)
    (b : Blocks) : Str × Blocks × Bool :=
  if b.last.type = .text then (content, openTag isword content_type content b tags, false)
  else if b.last.type = content_type then closeTag content_type content b
  else (content, b, false)

def DEFAULT_REASONING_TAGS : List (Str × Str) :=
  [("<think>".toList, "</think>".toList),
   ("<thinking>".toList, "</thinking>".toList),
   ("<reason>".toList, "</reason>".toList),
   ("<reasoning>".toList, "</reasoning>".toList),
   ("<thought>".toList, "</thought>".toList),
   ("<Thought>".toList, "</Thought>".toList),
   ("<|begin_of_thought|>".toList, "<|end_of_thought|>".toList),
   ("◁think▷".toList, "◁/think▷".toList)]

def DEFAULT_SOLUTION_TAGS : List (Str × Str) :=
  [("<|begin_of_solution|>".toList, "<|end_of_solution|>".toList)]

def DEFAULT_CODE_INTERPRETER_TAGS : List (Str × Str) :=
  [("<code_interpreter>".toList, "</code_interpreter>".toList)]

structure Detection where
  reasoning_tags : Option (List (Str × Str))
  detect_code_interpreter : Bool

/-- `content` and `content_blocks` -/
structure Stream where
  content : Str
  blocks : Blocks

def Stream.start : Stream := ⟨[], ⟨[], .text []⟩⟩

def onDelta (d : Detection) (value : Str) (s : Stream) : Stream × Bool :=
  if value = [] then (s, false)
  else
    let b := if s.blocks.last.type = .reasoning ∧
        s.blocks.last.attributes.get? "type".toList = some "reasoning_content".toList then
      s.blocks.append (.text []) else s.blocks
    let content := s.content ++ value
    let b := b.replaceLast { b.last with content := b.last.content ++ value }
    let (content, b) := match d.reasoning_tags with
      | none => (content, b)
      | some reasoning_tags =>
        let (content, b, _) := tag_content_handler isword .reasoning reasoning_tags content b
        let (content, b, _) := tag_content_handler isword .solution DEFAULT_SOLUTION_TAGS content b
        (content, b)
    if d.detect_code_interpreter then
      let (content, b, ended) := tag_content_handler isword .code_interpreter
        DEFAULT_CODE_INTERPRETER_TAGS content b
      (⟨content, b⟩, ended)
    else (⟨content, b⟩, false)

def onDeltas (d : Detection) : List Str → Stream → Stream
  | [], s => s
  | value :: values, s =>
    let (s, ended) := onDelta isword d value s
    if ended then s else onDeltas d values s

def cleanUp (b : Blocks) : List Block :=
  if b.last.type = .text then
    if strip isspace b.last.content ≠ [] then
      b.init ++ [{ b.last with content := strip isspace b.last.content }]
    else if b.init = [] then [.text []]
    else b.init
  else b.toList

/-- The `content_blocks` at the end of `stream_body_handler`. -/
def stream_body_handler (d : Detection) (deltas : List Str) : List Block :=
  cleanUp (onDeltas isword d deltas .start).blocks

end CustomAi.OpenWebUI.TagContent
