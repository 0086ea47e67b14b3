/-!
The functions of the script, the same for every catalog: they scan and fill in templates,
evaluate the plural rule, and look messages up.
-/

namespace Phrasebook.Artifact

def functionLines : List String := [
  "    var hasOwn = Object.prototype.hasOwnProperty;",
  "",
  "    var maxWidth = 1024;",
  "",
  "    function isLetter(c) \x7b",
  "        return (c >= \"a\" && c <= \"z\") || (c >= \"A\" && c <= \"Z\");",
  "    \x7d",
  "",
  "    function isDigit(c) \x7b",
  "        return c >= \"0\" && c <= \"9\";",
  "    \x7d",
  "",
  "    function isWordChar(c) \x7b",
  "        return isLetter(c) || isDigit(c) || c === \"_\";",
  "    \x7d",
  "",
  "    function truncate(x) \x7b",
  "        return x < 0 ? Math.ceil(x) : Math.floor(x);",
  "    \x7d",
  "",
  "    /**",
  "     * Scans a \"%(name)[width]type\" directive starting at the \"%\" at index",
  "     * `start`. Returns null when the text there is not a directive.",
  "     */",
  "    function scanDirective(text, start) \x7b",
  "        if (text.charAt(start + 1) !== \"(\") \x7b",
  "            return null;",
  "        \x7d",
  "        var i = start + 2;",
  "        if (!isLetter(text.charAt(i))) \x7b",
  "            return null;",
  "        \x7d",
  "        while (isWordChar(text.charAt(i))) \x7b",
  "            i += 1;",
  "        \x7d",
  "        var name = text.slice(start + 2, i);",
  "        if (text.charAt(i) !== \")\") \x7b",
  "            return null;",
  "        \x7d",
  "        i += 1;",
  "        var widthStart = i;",
  "        while (isDigit(text.charAt(i))) \x7b",
  "            i += 1;",
  "        \x7d",
  "        var width = text.slice(widthStart, i);",
  "        var type = text.charAt(i);",
  "        if (!(type >= \"a\" && type <= \"z\")) \x7b",
  "            return null;",
  "        \x7d",
  "        return \x7b start: start, end: i + 1, name: name, width: width, type: type \x7d;",
  "    \x7d",
  "",
  "    function renderDirective(directive, variables) \x7b",
  "        if (!hasOwn.call(variables, directive.name)) \x7b",
  "            throw new Error(",
  "                \"format variable '\" + directive.name + \"' doesn't exist\"",
  "            );",
  "        \x7d",
  "",
  "        var value = variables[directive.name];",
  "        var output;",
  "        if (directive.type === \"d\") \x7b",
  "            output = \"\" + (value | 0);",
  "        \x7d else if (directive.type === \"f\") \x7b",
  "            output = \"\" + (+value);",
  "        \x7d else \x7b",
  "            output = \"\" + value;",
  "        \x7d",
  "",
  "        var width = directive.width === \"\" ? 0 : parseInt(directive.width, 10);",
  "        if (output.length < width) \x7b",
  "            var numeric = directive.type === \"d\" || directive.type === \"f\";",
  "            var pad = numeric && directive.width.charAt(0) === \"0\" ? \"0\" : \" \";",
  "            output = new Array(width - output.length + 1).join(pad) + output;",
  "        \x7d",
  "        return output;",
  "    \x7d",
  "",
  "    /**",
  "     * Formats text using \"%(name)s\", \"%(name)d\" and \"%(name)f\" directives,",
  "     * with an optional width (\"%(count)03d\").",
  "     * @param \x7bstring\x7d text - The text",
  "     * @param \x7bobject\x7d variables - Values for the directives",
  "     * @return \x7bstring\x7d",
  "     */",
  "    function format(text, variables) \x7b",
  "        if (typeof variables !== \"object\" || variables === null) \x7b",
  "            variables = \x7b\x7d;",
  "        \x7d",
  "",
  "        var directives = [];",
  "        var i = text.indexOf(\"%\");",
  "        while (i !== -1) \x7b",
  "            var directive = scanDirective(text, i);",
  "            if (directive === null) \x7b",
  "                i = text.indexOf(\"%\", i + 1);",
  "                continue;",
  "            \x7d",
  "            if (directive.type !== \"s\" && directive.type !== \"d\" && directive.type !== \"f\") \x7b",
  "                throw new Error(\"unknown formatting specifier '\" + directive.type + \"'\");",
  "            \x7d",
  "            if (directive.width !== \"\" && parseInt(directive.width, 10) > maxWidth) \x7b",
  "                throw new Error(",
  "                    \"format width \" + directive.width + \" for '\" + directive.name +",
  "                    \"' exceeds the limit of \" + maxWidth",
  "                );",
  "            \x7d",
  "            directives.push(directive);",
  "            i = text.indexOf(\"%\", directive.end);",
  "        \x7d",
  "",
  "        var output = \"\";",
  "        var last = 0;",
  "        for (var k = 0; k < directives.length; k += 1) \x7b",
  "            output += text.slice(last, directives[k].start);",
  "            output += renderDirective(directives[k], variables);",
  "            last = directives[k].end;",
  "        \x7d",
  "        return output + text.slice(last);",
  "    \x7d",
  "",
  "    function evaluateBinary(op, lhs, rhs, n) \x7b",
  "        var a = evaluatePlural(lhs, n);",
  "        if (op === \"&&\") \x7b",
  "            return a !== 0 && evaluatePlural(rhs, n) !== 0 ? 1 : 0;",
  "        \x7d",
  "        if (op === \"||\") \x7b",
  "            return a !== 0 || evaluatePlural(rhs, n) !== 0 ? 1 : 0;",
  "        \x7d",
  "        var b = evaluatePlural(rhs, n);",
  "        switch (op) \x7b",
  "            case \"+\": return a + b;",
  "            case \"-\": return a - b;",
  "            case \"*\": return a * b;",
  "            case \"/\": return b === 0 ? 0 : truncate(a / b);",
  "            case \"%\": return b === 0 ? 0 : a % b;",
  "            case \"==\": return a === b ? 1 : 0;",
  "            case \"!=\": return a !== b ? 1 : 0;",
  "            case \"<\": return a < b ? 1 : 0;",
  "            case \"<=\": return a <= b ? 1 : 0;",
  "            case \">\": return a > b ? 1 : 0;",
  "            case \">=\": return a >= b ? 1 : 0;",
  "        \x7d",
  "        throw new Error(\"unknown plural operator '\" + op + \"'\");",
  "    \x7d",
  "",
  "    function evaluatePlural(node, n) \x7b",
  "        var args = node.args;",
  "        switch (node.op) \x7b",
  "            case \"n\": return n;",
  "            case \"literal\": return args;",
  "            case \"not\": return evaluatePlural(args, n) === 0 ? 1 : 0;",
  "            case \"binary\": return evaluateBinary(args[0], args[1], args[2], n);",
  "            case \"conditional\":",
  "                return evaluatePlural(args[0], n) !== 0",
  "                    ? evaluatePlural(args[1], n)",
  "                    : evaluatePlural(args[2], n);",
  "        \x7d",
  "        throw new Error(\"unknown plural rule node '\" + node.op + \"'\");",
  "    \x7d",
  "",
  "    function pluralIndex(n) \x7b",
  "        if (pluralRule === null) \x7b",
  "            return n === 1 ? 0 : 1;",
  "        \x7d",
  "        var index = evaluatePlural(pluralRule, n);",
  "        return index > 0 ? index : 0;",
  "    \x7d",
  "",
  "    function lookup(text) \x7b",
  "        return hasOwn.call(catalog, text) ? catalog[text] : undefined;",
  "    \x7d",
  "",
  "    /**",
  "     * Get some text translated in the current language.",
  "     * @param \x7bstring\x7d text - The text",
  "     * @param \x7bobject\x7d variables - Values for formatting",
  "     * @return \x7bstring\x7d",
  "     */",
  "    function gettext(text, variables) \x7b",
  "        var entry = lookup(text);",
  "        return format(typeof entry === \"string\" ? entry : text, variables);",
  "    \x7d",
  "",
  "    /**",
  "     * Get some pluralized text translated in the current language. The count",
  "     * is available to the text as \"%(n)d\" unless `variables` defines \"n\".",
  "     * @param \x7bstring\x7d text - The text",
  "     * @param \x7bstring\x7d textPlural - The text for plural",
  "     * @param \x7bnumber\x7d n - The amount of items, determines plurality",
  "     * @param \x7bobject\x7d variables - Values for formatting",
  "     * @return \x7bstring\x7d",
  "     */",
  "    function ngettext(text, textPlural, n, variables) \x7b",
  "        var bound = \x7b\x7d;",
  "        if (typeof variables === \"object\" && variables !== null) \x7b",
  "            for (var key in variables) \x7b",
  "                if (hasOwn.call(variables, key)) \x7b",
  "                    bound[key] = variables[key];",
  "                \x7d",
  "            \x7d",
  "        \x7d",
  "        if (!hasOwn.call(bound, \"n\")) \x7b",
  "            bound.n = n;",
  "        \x7d",
  "",
  "        var entry = lookup(text);",
  "        var index = pluralIndex(n);",
  "        if (typeof entry === \"object\" && entry !== null && hasOwn.call(entry, \"\" + index)) \x7b",
  "            return format(entry[\"\" + index], bound);",
  "        \x7d",
  "        return format(index === 0 ? text : textPlural, bound);",
  "    \x7d"]

def functions : String :=
  String.join (functionLines.map (· ++ "\n"))

end Phrasebook.Artifact
