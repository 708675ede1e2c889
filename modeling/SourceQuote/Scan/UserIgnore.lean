import SourceQuote.Environment
import SourceQuote.Scan.IgnoreFiles

/-!
Contract: the ignore file that a user keeps for all projects.

Owns: where that file lies, and its verdict on a place.

Settings files may name the ignore file under `excludesfile`. The one that
`GIT_CONFIG_GLOBAL` names is asked first, then the one in the home directory, then
the one in the configuration directory, and last the one that `GIT_CONFIG_SYSTEM`
names. If none does, it is the file `git/ignore` of the configuration directory,
which is the one that `XDG_CONFIG_HOME` names, or `.config` at home. Without a home
and these variables there is none. Its rules belong to the directory that relative
paths start from.

Does not own: anything else in a settings file. Sections are not looked at: any
line with the name counts, and the first one with a value of one word is taken.
-/

namespace SourceQuote

open SourceQuote.Text

namespace UserIgnore

def configDirectory? (environment : Environment) : Option String :=
  (environment.filled? "XDG_CONFIG_HOME").or
    (environment.home?.map fun home => Path.join home ".config")

def isSpace (byte : UInt8) : Bool :=
  byte = 0x20 || (0x09 ≤ byte && byte ≤ 0x0d)

def quoteByte : UInt8 := 0x22

def equalsByte : UInt8 := 0x3d

/-- What follows a word, whose ASCII letters may be capitals in the bytes. -/
def afterWord? : List Char → List UInt8 → Option (List UInt8)
  | [], bytes => some bytes
  | _ :: _, [] => none
  | c :: word, byte :: rest =>
      if (Char.ofNat byte.toNat).toLower = c then afterWord? word rest else none

/-- Whether nothing but blanks comes before the end of a line. -/
def endsLine (bytes : List UInt8) : Bool :=
  let blanks := bytes.takeWhile isSpace
  blanks.contains lineFeed || blanks.length = bytes.length

/-- Whether a quotation mark comes next, and then the end of a line. -/
def closesLine (bytes : List UInt8) : Bool :=
  match bytes.dropWhile isSpace with
  | byte :: rest => byte = quoteByte && endsLine rest
  | [] => false

/-- The word that bytes start with, if nothing but a quotation mark follows on its
line. -/
def wordAlone? (bytes : List UInt8) : Option (List UInt8) :=
  let word := bytes.takeWhile fun byte => !isSpace byte
  let rest := bytes.dropWhile fun byte => !isSpace byte
  if 2 ≤ word.length && word.getLast? = some quoteByte && endsLine rest then
    some word.dropLast
  else if !word.isEmpty && (endsLine rest || closesLine rest) then some word
  else none

/-- The value that bytes start with, with a quotation mark in front or without. -/
def value? (bytes : List UInt8) : Option (List UInt8) :=
  match bytes with
  | byte :: rest =>
      if byte = quoteByte then (wordAlone? (rest.dropWhile isSpace)).or (wordAlone? bytes)
      else wordAlone? bytes
  | [] => none

/-- The value of the setting that bytes start with, if it names the ignore file. -/
def settingAt? (bytes : List UInt8) : Option (List UInt8) :=
  (afterWord? "excludesfile".toList (bytes.dropWhile isSpace)).bind fun rest =>
    match rest.dropWhile isSpace with
    | byte :: value => if byte = equalsByte then value? (value.dropWhile isSpace) else none
    | [] => none

/-- The ends of some bytes that start right after a line feed. -/
def endsAfterFeed : List UInt8 → List (List UInt8)
  | [] => []
  | byte :: rest =>
      if byte = lineFeed then rest :: endsAfterFeed rest else endsAfterFeed rest

/-- A path with the home directory for every `~`, if there is one. -/
def expandHome (environment : Environment) (path : String) : String :=
  match environment.home? with
  | none => path
  | some home => String.ofList (path.toList.flatMap fun c => if c = '~' then home.toList else [c])

def namedIn? (environment : Environment) (content : ByteArray) : Option String :=
  let bytes := content.toList
  ((bytes :: endsAfterFeed bytes).findSome? settingAt?).bind fun value =>
    (String.fromUTF8? ⟨value.toArray⟩).map (expandHome environment)

/-- The paths of the settings files that may name the ignore file, the one that is
asked first in front. -/
def settingsFiles (environment : Environment) : List String :=
  [environment.filled? "GIT_CONFIG_GLOBAL",
    environment.home?.map fun home => Path.join home ".gitconfig",
    (configDirectory? environment).map fun directory => Path.join directory "git/config",
    environment.filled? "GIT_CONFIG_SYSTEM"].filterMap id

def path? (fs : FileSystem) (here : Location) (environment : Environment) : Option String :=
  let named := (settingsFiles environment).findSome? fun path =>
    (fs.read? here path).bind (namedIn? environment)
  named.or ((configDirectory? environment).map fun directory => Path.join directory "git/ignore")

def rules (fs : FileSystem) (here : Location) (environment : Environment) : List Rule :=
  (((path? fs here environment).bind (fs.read? here)).map IgnoreFiles.rulesIn).getD []

/-- A text without what it starts with; the text itself if it starts otherwise. -/
def withoutStart (start text : List Char) : List Char :=
  if start.isPrefixOf text then text.drop start.length else text

/-- The path of a place as the user's rules see it: from `here` on if its text
begins with that of `here`, else from the top. -/
def pathFrom (here location : Location) : String :=
  let top := (FileSystem.absolutePath here).toList
  let path := (FileSystem.absolutePath location).toList
  if top.isPrefixOf path then
    String.ofList (withoutStart ['/'] (withoutStart top path))
  else
    String.ofList path

end UserIgnore

end SourceQuote
