import FileMagic.RuleText.Source

/-! A script starts with a number sign and an exclamation mark; its interpreter is looked for in
the first line only. -/

namespace FileMagic.Builtin

def scriptsLines : List Text := [
  "0\tstring\t#!\tscript text".toList,
  ">2\tregex/1l\tpython[0-9.]*\t\\b, Python".toList,
  ">2\tregex/1l\t(ba|z|k|da)?sh\\b\t\\b, shell".toList,
  ">2\tregex/1l\tperl\t\\b, Perl".toList,
  ">2\tdefault\tx\t\\b, executable".toList]

end FileMagic.Builtin
