import BlockCanvas.Catalog
namespace BlockCanvas.Catalog

def literalTypes : List DataType := [.number, .text, .boolean]

def operation (id label help : String) (operand result : DataType) (level : Int)
    (examples : List String) : Definition :=
  { id := id
    category := .operators
    kind := .expression
    label := label
    inputs := [{ id := "left", label := "esquerda", type := operand },
      { id := "right", label := "direita", type := operand }]
    output := some { id := "result", type := result }
    level := level
    help := help
    examples := examples
    template := "(\x7bleft\x7d " ++ label ++ " \x7bright\x7d)" }

def arithmetic (id label help : String) (level : Int) (examples : List String) : Definition :=
  operation id label help .number .number level examples

def comparison (id label help : String) (level : Int) (examples : List String) : Definition :=
  operation id label help .number .boolean level examples

def inputOutput : List Definition :=
  [{ id := "io.write"
     category := .io
     kind := .statement
     label := "escreva"
     inputs := [{ id := "value", label := "valor", type := .any, accepts := some literalTypes }]
     hasNext := true
     hasPrevious := true
     help := "Exibe uma mensagem ou valor na tela"
     examples := ["escreva(\"Olá, mundo!\")", "escreva(42)"]
     template := "escreva(\x7bvalue\x7d)" },
   { id := "io.read"
     category := .io
     kind := .expression
     label := "leia"
     inputs := [{ id := "prompt", label := "mensagem", type := .text, required := false }]
     output := some { id := "result", type := .text }
     help := "Recebe um valor digitado pelo usuário"
     examples := ["nome = leia(\"Digite seu nome:\")"]
     template := "leia(\x7bprompt\x7d)" }]

def namings : List Definition :=
  [{ id := "var.declare"
     category := .naming
     kind := .statement
     label := "criar variável"
     inputs := [{ id := "name", label := "nome", type := .text },
       { id := "value", label := "valor inicial", type := .any, required := false,
         accepts := some literalTypes }]
     hasNext := true
     hasPrevious := true
     help := "Cria uma variável para guardar informações"
     examples := ["var idade = 10", "var nome = \"João\""]
     template := "var \x7bname\x7d = \x7bvalue\x7d" },
   { id := "var.get"
     category := .naming
     kind := .expression
     label := "obter variável"
     inputs := [{ id := "name", label := "nome", type := .text }]
     output := some { id := "value", type := .any }
     help := "Obtém o valor armazenado em uma variável"
     examples := ["minhaIdade", "contador"]
     template := "\x7bname\x7d" },
   { id := "var.set"
     category := .naming
     kind := .statement
     label := "alterar variável"
     inputs := [{ id := "name", label := "nome", type := .text },
       { id := "value", label := "novo valor", type := .any, accepts := some literalTypes }]
     hasNext := true
     hasPrevious := true
     help := "Altera o valor de uma variável existente"
     examples := ["idade = 11", "contador = contador + 1"]
     template := "\x7bname\x7d = \x7bvalue\x7d" }]

def operations : List Definition :=
  [arithmetic "op.add" "+" "Soma dois números" 1 ["5 + 3 = 8"],
   arithmetic "op.subtract" "-" "Subtrai dois números" 1 ["10 - 3 = 7"],
   arithmetic "op.multiply" "*" "Multiplica dois números" 2 ["4 * 2 = 8"],
   arithmetic "op.divide" "/" "Divide o primeiro número pelo segundo" 2 ["9 / 3 = 3"],
   operation "op.compare.equal" "==" "Verifica se dois valores são iguais" .any .boolean 2
     ["5 == 5 → verdadeiro", "3 == 7 → falso"],
   comparison "op.compare.greater" ">" "Verifica se o primeiro número é maior que o segundo" 2
     ["8 > 5 → verdadeiro"],
   comparison "op.compare.less" "<" "Verifica se o primeiro número é menor que o segundo" 2
     ["3 < 5 → verdadeiro"],
   comparison "op.compare.greater_equal" ">="
     "Verifica se o primeiro número é maior ou igual ao segundo" 3 ["5 >= 5 → verdadeiro"],
   comparison "op.compare.less_equal" "<="
     "Verifica se o primeiro número é menor ou igual ao segundo" 3 ["4 <= 2 → falso"]]

def controls : List Definition :=
  [{ id := "control.if"
     category := .control
     kind := .control
     label := "se"
     inputs := [{ id := "condition", label := "condição", type := .boolean }]
     hasNext := true
     hasPrevious := true
     level := 2
     help := "Executa comandos apenas se a condição for verdadeira"
     examples := ["se (idade > 18) entao \x7b", "  escreva(\"Maior de idade\")", "\x7d"]
     template := "se (\x7bcondition\x7d) entao \x7b\x7b\n  \x7bbody\x7d\n\x7d\x7d" },
   { id := "control.while"
     category := .control
     kind := .control
     label := "enquanto"
     inputs := [{ id := "condition", label := "condição", type := .boolean }]
     hasNext := true
     hasPrevious := true
     level := 3
     help := "Repete comandos enquanto a condição for verdadeira"
     examples := ["enquanto (contador < 10) faca \x7b", "  contador = contador + 1", "\x7d"]
     template := "enquanto (\x7bcondition\x7d) faca \x7b\x7b\n  \x7bbody\x7d\n\x7d\x7d" }]

def literals : List Definition :=
  [{ id := "literal.number"
     category := .operators
     kind := .expression
     label := "número"
     inputs := [{ id := "value", type := .number }]
     output := some { id := "result", type := .number }
     help := "Um valor numérico"
     examples := ["42", "3.14", "-10"]
     template := "\x7bvalue\x7d" },
   { id := "literal.text"
     category := .operators
     kind := .expression
     label := "texto"
     inputs := [{ id := "value", type := .text }]
     output := some { id := "result", type := .text }
     help := "Um texto ou mensagem"
     examples := ["\"Olá\"", "\"Bem-vindo!\""]
     template := "\"\x7bvalue\x7d\"" },
   { id := "literal.boolean"
     category := .operators
     kind := .expression
     label := "lógico"
     inputs := [{ id := "value", type := .boolean }]
     output := some { id := "result", type := .boolean }
     level := 2
     help := "Um valor verdadeiro ou falso"
     examples := ["verdadeiro", "falso"]
     template := "\x7bvalue\x7d" }]

def builtinDefinitions : List Definition :=
  inputOutput ++ namings ++ operations ++ controls ++ literals

def builtin : Catalog := ofDefinitions builtinDefinitions

end BlockCanvas.Catalog
