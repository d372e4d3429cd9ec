/-
The comment formats known from the start, by file name extension.
-/
import CopyrightNotice.Comment.Format
import CopyrightNotice.Text.Lowercase

namespace CopyrightNotice.CommentFormat

/-- The known formats, each with its extensions in lowercase. -/
def catalog : List (List String × CommentFormat) :=
  [(["bat", "cmd"], { led "::" with opening := "::".toList }),
   (["bats", "bazel", "bzl", "py", "sh"], (banner '#' "#").keeping "#!"),
   (["rb", "tf", "yaml", "yml", "toml"], banner '#' "#"),
   (["hs"], (banner '-' "--").keeping "#!"),
   (["chs", "daml", "lhs"], banner '-' "--"),
   (["c", "cc", "cpp", "h", "hh", "hpp", "groovy", "proto", "java", "js", "lf",
       "scala", "ts", "tsx", "rs", "go"], led "//"),
   (["sql"], led "--"),
   (["rst"], led ".."),
   (["tex"], banner '%' "%"),
   (["css", "scss"], wrapped "/*" "*/"),
   (["html"], (wrapped "<!--" "-->").keeping "<!")]

/-- The known format of an extension in any case. An extension without
one is no recognized kind of text. -/
def known? (extension : Text) : Option CommentFormat :=
  let wanted := Text.lowercase extension
  (catalog.find? fun (extensions, _) =>
      extensions.any (·.toList == wanted)).map Prod.snd

end CopyrightNotice.CommentFormat
